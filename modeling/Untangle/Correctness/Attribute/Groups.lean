import Mathlib.Data.List.Flatten
import Untangle.Correctness.Attribute.Once

/-!
# `Correctness.Attribute.Groups` — the groups that a reconstruction lifts

Here the attributions are whatever `reconstruct_splits` is given. The lines of the abstained ones form the pool
(`splitPool`), the assignable matches over it are the groups (`liftedMatches`), and a verdict changes exactly when its
line is a leg of one (`splits_unique`).
-/

namespace Untangle

open Lib

variable {U : Unicode} {s : Settings} {index : ReconIndex} {lines cands : List BankCreditLine}
  {attrs : List RailAttribution}

/-! ## Sublists of distinct lines -/

/-- Legs taken from a list of distinct keys are told apart by their keys. -/
theorem sublist_eq_of_keySet (hnd : (cands.map BankCreditLine.key).Nodup) {legs legs' : List BankCreditLine}
    (hlegs : legs.Sublist cands) (hlegs' : legs'.Sublist cands) (h : keySet legs = keySet legs') : legs = legs' := by
  have hcands : cands.Nodup := hnd.of_map _
  apply (hcands.perm_iff_eq_of_sublist hlegs hlegs').mp
  rw [List.perm_ext_iff_of_nodup (hcands.sublist hlegs) (hcands.sublist hlegs')]
  intro c
  have hkey : ∀ {xs ys : List BankCreditLine}, xs.Sublist cands → ys.Sublist cands → keySet xs = keySet ys →
      c ∈ xs → c ∈ ys := by
    intro xs ys hxs hys hsame hc
    obtain ⟨d, hd, heq⟩ := mem_keySet.mp (hsame ▸ mem_keySet.mpr ⟨c, hc, rfl⟩)
    rwa [← line_ext hnd (hys.subset hd) (hxs.subset hc) heq]
  exact ⟨hkey hlegs hlegs' h, hkey hlegs' hlegs h.symm⟩

/-! ## The pool and its groups -/

/-- The lines of the abstained attributions that may be legs. -/
def splitPool (U : Unicode) (s : Settings) (index : ReconIndex) (lines : List BankCreditLine)
    (attrs : List RailAttribution) : List BankCreditLine :=
  ((lines.zip attrs).filter fun p => isSplitCandidate U s index p.1 p.2).map Prod.fst

theorem splitPool_sublist (hlength : attrs.length = lines.length) :
    (splitPool U s index lines attrs).Sublist lines := by
  have hfst : (lines.zip attrs).map Prod.fst = lines := List.map_fst_zip hlength.ge
  have hsub : (splitPool U s index lines attrs).Sublist ((lines.zip attrs).map Prod.fst) :=
    List.filter_sublist.map _
  rwa [hfst] at hsub

/-- What the group of a settlement is: legs that sum to its net and to no other, in no pool that is not enumerated. -/
structure LiftedLegs (U : Unicode) (pack : NarrationEvidencePack) (index : ReconIndex) (pool : List BankCreditLine)
    (m : SplitMatch) : Prop where
  sublist : m.2.Sublist pool
  length : 2 ≤ m.2.length ∧ m.2.length ≤ 3
  /-- The legs sum to the net of a settlement near its date. -/
  sums : ∃ net date, Payable index m.1 net date ∧
    |(m.2.map BankCreditLine.amountPaise).sum - net| ≤ splitDriftPaise ∧
    ∀ leg ∈ m.2, withinDays splitDateWindow leg.valueDate date = true
  strong : ∃ leg ∈ m.2, hasSignal strongRzpSignals (razorpaySignals U pack index leg) = true
  /-- A leg is in no other subset that sums to a net. -/
  exclusive : ∀ leg ∈ m.2, ∀ sid net date, Payable index sid net date →
    ∀ legs, legs.Sublist (eligibleLegs pool net date) → 2 ≤ legs.length → legs.length ≤ 3 →
      |(legs.map BankCreditLine.amountPaise).sum - net| ≤ splitDriftPaise → leg ∈ legs → (sid, legs) = m
  /-- A leg is in no pool that is too large to enumerate. -/
  enumerable : ∀ leg ∈ m.2, ∀ sid net date, Payable index sid net date →
    splitMaxCandidates < (eligibleLegs pool net date).length → leg ∉ eligibleLegs pool net date

/-- The matches over a pool whose legs are assigned. -/
def liftedMatches (U : Unicode) (s : Settings) (index : ReconIndex) (pool : List BankCreditLine) : List SplitMatch :=
  (collectMatches pool (splitSettlements index)).1.filter
    (assignable (evidenceByKey U s index pool) (collectMatches pool (splitSettlements index)).1
      (collectMatches pool (splitSettlements index)).2)

theorem mem_liftedMatches (hnd : (cands.map BankCreditLine.key).Nodup) {m : SplitMatch} :
    m ∈ liftedMatches U s index cands ↔ m ∈ (collectMatches cands (splitSettlements index)).1 ∧
      LiftedGroup U s.pack index cands m.1 (keySet m.2) := by
  unfold liftedMatches
  rw [List.mem_filter]
  exact and_congr_right fun hm => assignable_iff hnd hm

theorem sublist_of_found {m : SplitMatch} (hm : m ∈ (collectMatches cands (splitSettlements index)).1) :
    m.2.Sublist cands := by
  obtain ⟨net, date, _, _, _, hsub⟩ := (mem_collectMatches _).mp hm
  exact (mem_allSumSubsets hsub).1.trans List.filter_sublist

/-- Legs of a payable settlement that sum to its net are a match, unless its pool is too large. -/
theorem isMatch_of_legs (hnd : (cands.map BankCreditLine.key).Nodup) {sid : String} {net : ℤ} {date : Date}
    (hpay : Payable index sid net date) (hpool : (eligibleLegs cands net date).length ≤ splitMaxCandidates)
    {legs : List BankCreditLine} (hlegs : legs.Sublist (eligibleLegs cands net date)) (htwo : 2 ≤ legs.length)
    (hthree : legs.length ≤ 3) (hsum : |(legs.map BankCreditLine.amountPaise).sum - net| ≤ splitDriftPaise) :
    IsMatch index cands sid (keySet legs) := by
  have hsub : legs.Sublist cands := hlegs.trans List.filter_sublist
  have hcard : (keySet legs).card = legs.length := card_identities hnd hsub
  have htotal : ∑ k ∈ keySet legs, amountOfKey cands k = (legs.map BankCreditLine.amountPaise).sum :=
    sum_identities hnd (fun c hc => amountOfKey_mem hnd hc) hsub
  refine ⟨net, date, hpay, hpool, mem_sumSets.mpr ⟨identities_subset hlegs, ?_, ?_, ?_⟩⟩
  · rwa [hcard]
  · rwa [hcard]
  · rwa [htotal]

/-- **An assigned match is a group that nothing else touches.** -/
theorem liftedLegs_of_mem (hnd : (cands.map BankCreditLine.key).Nodup) {m : SplitMatch}
    (h : m ∈ liftedMatches U s index cands) : LiftedLegs U s.pack index cands m := by
  obtain ⟨hfound, hgroup⟩ := (mem_liftedMatches hnd).mp h
  obtain ⟨net, date, hvisited, _, hpool, hsub⟩ := (mem_collectMatches _).mp hfound
  obtain ⟨hlegs, htwo, hthree, hsum⟩ := mem_allSumSubsets hsub
  have hcands := sublist_of_found hfound
  refine ⟨hcands, ⟨htwo, hthree⟩, ⟨net, date, mem_splitSettlements.mp hvisited, hsum, fun leg hleg => ?_⟩, ?_, ?_, ?_⟩
  · exact (of_decide_eq_true (List.mem_filter.mp (hlegs.subset hleg)).2).2
  · obtain ⟨c, hc, hkey, hstrong⟩ := hgroup.strong
    obtain ⟨leg, hleg, heq⟩ := mem_keySet.mp hkey
    have hsame : leg = c := line_ext hnd (hcands.subset hleg) hc heq
    exact ⟨c, hsame ▸ hleg, hstrong⟩
  · intro leg hleg sid net' date' hpay legs hother htwo' hthree' hsum' hmem
    have hkey : leg.key ∈ keySet m.2 := mem_keySet.mpr ⟨leg, hleg, rfl⟩
    have hsmall : (eligibleLegs cands net' date').length ≤ splitMaxCandidates := by
      by_contra hlarge
      apply hgroup.enumerable leg.key hkey
      exact ⟨sid, net', date', hpay, not_le.mp hlarge, mem_keySet.mpr ⟨leg, hother.subset hmem, rfl⟩⟩
    have hmatch := isMatch_of_legs hnd hpay hsmall hother htwo' hthree' hsum'
    obtain ⟨hsid, hkeys⟩ := hgroup.exclusive leg.key hkey sid _ hmatch (mem_keySet.mpr ⟨leg, hmem, rfl⟩)
    rw [hsid, sublist_eq_of_keySet hnd (hother.trans List.filter_sublist) hcands hkeys]
  · intro leg hleg sid net' date' hpay hlarge hmem
    apply hgroup.enumerable leg.key (mem_keySet.mpr ⟨leg, hleg, rfl⟩)
    exact ⟨sid, net', date', hpay, hlarge, mem_keySet.mpr ⟨leg, hmem, rfl⟩⟩

/-- The groups are disjoint. -/
theorem nodup_liftedMatches (hnd : (cands.map BankCreditLine.key).Nodup) :
    ((liftedMatches U s index cands).flatMap Prod.snd).Nodup := by
  have hpairs := nodup_collectMatches hnd (nodup_splitSettlements index)
  have hgroups : (liftedMatches U s index cands).Nodup := (hpairs.of_map _).filter _
  apply List.pairwise_flatMap.mpr
  refine ⟨fun m hm => ?_, ?_⟩
  · have hfound := ((mem_liftedMatches hnd).mp hm).1
    exact (hnd.of_map _).sublist (sublist_of_found hfound)
  · apply List.Pairwise.imp_of_mem _ hgroups
    intro m m' hm hm' hne leg hleg leg' hleg' heq
    obtain ⟨hfound, hgroup⟩ := (mem_liftedMatches hnd).mp hm
    obtain ⟨hfound', hgroup'⟩ := (mem_liftedMatches hnd).mp hm'
    -- a shared leg makes them one match
    obtain ⟨hsid, hkeys⟩ := hgroup.unique hgroup' (mem_keySet.mpr ⟨leg, hleg, rfl⟩)
      (mem_keySet.mpr ⟨leg', hleg', congrArg BankCreditLine.key heq.symm⟩)
    exact hne (List.inj_on_of_nodup_map hpairs hfound hfound' (by simp only [hsid, hkeys]))

/-- A key is assigned when its line is a leg of a group. -/
theorem assigned_iff (hnd : (cands.map BankCreditLine.key).Nodup) {key : String} :
    (∃ v, (assignedLegs U s index cands).get? key = some v) ↔
      ∃ leg ∈ (liftedMatches U s index cands).flatMap Prod.snd, leg.key = key := by
  constructor
  · rintro ⟨v, hv⟩
    obtain ⟨sid, K, hgroup, hkey, _⟩ := (assignedLegs_get? hnd).mp hv
    obtain ⟨m, hm, rfl, rfl⟩ := (exists_found_iff hnd).mpr hgroup.isMatch
    obtain ⟨leg, hleg, heq⟩ := mem_keySet.mp hkey
    exact ⟨leg, List.mem_flatMap.mpr ⟨m, (mem_liftedMatches hnd).mpr ⟨hm, hgroup⟩, hleg⟩, heq⟩
  · rintro ⟨leg, hleg, rfl⟩
    obtain ⟨m, hm, hmem⟩ := List.mem_flatMap.mp hleg
    obtain ⟨_, hgroup⟩ := (mem_liftedMatches hnd).mp hm
    exact ⟨_, (assignedLegs_get? hnd).mpr ⟨m.1, keySet m.2, hgroup, mem_keySet.mpr ⟨leg, hmem, rfl⟩, rfl⟩⟩

/-! ## The pass over the attributions -/

/-- The verdict of a line after the pass. -/
def passed (U : Unicode) (s : Settings) (index : ReconIndex) (pool : List BankCreditLine) (line : BankCreditLine)
    (a : RailAttribution) : RailAttribution :=
  if splitConfidence < s.threshold then a else liftLeg U s (assignedLegs U s index pool) line a

/-- **The pass never raises** on lists of one length, and works line by line. -/
theorem reconstructSplits_passed (hlength : attrs.length = lines.length) :
    reconstructSplits U s index lines attrs =
      .ok ((lines.zip attrs).map fun p => passed U s index (splitPool U s index lines attrs) p.1 p.2) := by
  have hsnd : (lines.zip attrs).map Prod.snd = attrs := List.map_snd_zip hlength.le
  have hzip : zipStrict lines attrs = .ok (lines.zip attrs) := by
    unfold zipStrict
    rw [hlength, if_neg (lt_irrefl _), if_neg (lt_irrefl _)]
  have hkept : attrs = (lines.zip attrs).map fun p => p.2 := hsnd.symm
  unfold reconstructSplits passed
  by_cases hthreshold : splitConfidence < s.threshold
  · simp only [if_pos hthreshold]
    exact congrArg Except.ok hkept
  · simp only [if_neg hthreshold, hzip, bind, Except.bind]
    show (if (splitPool U s index lines attrs).length < 2 then Except.ok attrs else _) = _
    unfold assignedLegs
    by_cases hsmall : (splitPool U s index lines attrs).length < 2
    · simp only [if_pos hsmall, liftLeg_empty]
      exact congrArg Except.ok hkept
    · simp only [if_neg hsmall]
      split
      · rename_i hnil
        have hnone : ∀ key, (assignLegs index (evidenceByKey U s index (splitPool U s index lines attrs))
            (collectMatches (splitPool U s index lines attrs) (splitSettlements index)).1
            (collectMatches (splitPool U s index lines attrs) (splitSettlements index)).2).get? key = none := by
          intro key
          unfold Dict.get?
          unfold splitPool
          rw [hnil]
          rfl
        refine (congrArg Except.ok hkept).trans (congrArg Except.ok (List.map_congr_left fun p _ => ?_))
        unfold liftLeg
        rw [hnone]
      · rfl

theorem lineKey_passed {pool : List BankCreditLine} {line : BankCreditLine} {a : RailAttribution}
    (hkey : a.lineKey = line.key) : (passed U s index pool line a).lineKey = line.key := by
  unfold passed liftLeg
  split
  · exact hkey
  · split
    · exact hkey
    · exact lineKey_finalizeRazorpay line .c

/-- The groups of the pass: none when the threshold switches it off. -/
def splitGroups (U : Unicode) (s : Settings) (index : ReconIndex) (pool : List BankCreditLine) : List SplitMatch :=
  if splitConfidence < s.threshold then [] else liftedMatches U s index pool

/-- A line of the pool abstained, as the attribution beside it says. -/
theorem isSplitCandidate_of_mem_splitPool (hnd : (lines.map BankCreditLine.key).Nodup)
    (hlength : attrs.length = lines.length) {line : BankCreditLine} {a : RailAttribution} (hmem : (line, a) ∈ lines.zip attrs) (hpool : line ∈ splitPool U s index lines attrs) :
    isSplitCandidate U s index line a = true := by
  obtain ⟨p, hp, rfl⟩ := List.mem_map.mp hpool
  obtain ⟨hzip, hcandidate⟩ := List.mem_filter.mp hp
  -- a line is paired once
  have hfst : ((lines.zip attrs).map Prod.fst).Nodup := by
    rw [List.map_fst_zip hlength.ge]
    exact hnd.of_map _
  have hsame : p = (p.1, a) := List.inj_on_of_nodup_map hfst hzip hmem rfl
  rw [hsame] at hcandidate
  exact hcandidate

/-- **A verdict changes exactly when its line is a leg of a group.** -/
theorem passed_ne_iff (hnd : (lines.map BankCreditLine.key).Nodup) (hlength : attrs.length = lines.length)
    (hmargin : s.marginThreshold = 0) {line : BankCreditLine} {a : RailAttribution}
    (hmem : (line, a) ∈ lines.zip attrs) :
    passed U s index (splitPool U s index lines attrs) line a ≠ a ↔
      line ∈ (splitGroups U s index (splitPool U s index lines attrs)).flatMap Prod.snd := by
  have hsub : (splitPool U s index lines attrs).Sublist lines := splitPool_sublist hlength
  have hpool := hnd.sublist (hsub.map BankCreditLine.key)
  unfold passed splitGroups
  by_cases hthreshold : splitConfidence < s.threshold
  · rw [if_pos hthreshold, if_pos hthreshold]
    simp
  · rw [if_neg hthreshold, if_neg hthreshold]
    have hlegs : ∀ leg ∈ (liftedMatches U s index (splitPool U s index lines attrs)).flatMap Prod.snd,
        leg ∈ splitPool U s index lines attrs := by
      intro leg hleg
      obtain ⟨m, hm, hmem⟩ := List.mem_flatMap.mp hleg
      exact (liftedLegs_of_mem hpool hm).sublist.subset hmem
    unfold liftLeg
    constructor
    · intro hchanged
      cases hget : (assignedLegs U s index (splitPool U s index lines attrs)).get? line.key with
      | none =>
          rw [hget] at hchanged
          exact absurd rfl hchanged
      | some v =>
          obtain ⟨leg, hleg, hkey⟩ := (assigned_iff hpool).mp ⟨v, hget⟩
          have hline : line ∈ lines := (List.of_mem_zip hmem).1
          rwa [← line_ext hnd (hsub.subset (hlegs leg hleg)) hline hkey]
    · intro hleg
      obtain ⟨v, hget⟩ := (assigned_iff hpool).mpr ⟨line, hleg, rfl⟩
      have hclosed := (isSplitCandidate_iff.mp (isSplitCandidate_of_mem_splitPool hnd hlength hmem (hlegs line hleg))).1
      rw [hget]
      intro hsame
      have haccepted : Accepted (finalizeRazorpay s line [splitItem v.1 v.2.1 v.2.2]
          (narrationRailSignals U s.pack line) splitConfidence .c) line [splitItem v.1 v.2.1 v.2.2] splitConfidence .c :=
        finalize_accepted line .c (Or.inl hmargin.le)
      have hopen := haccepted.open_
      rw [show finalizeRazorpay s line [splitItem v.1 v.2.1 v.2.2] (narrationRailSignals U s.pack line) splitConfidence
        .c = a from hsame, hclosed] at hopen
      exact absurd hopen (by simp)

/-- Each triple of a line, its verdict and its new verdict comes from one pair. -/
theorem mem_zip_map {α β γ : Type} {f : α × β → γ} {xs : List α} {ys : List β} {p : α × β × γ}
    (h : p ∈ xs.zip (ys.zip ((xs.zip ys).map f))) : (p.1, p.2.1) ∈ xs.zip ys ∧ p.2.2 = f (p.1, p.2.1) := by
  induction xs generalizing ys with
  | nil => exact absurd h List.not_mem_nil
  | cons x xs ih =>
      cases ys with
      | nil => exact absurd h List.not_mem_nil
      | cons y ys =>
          rcases List.mem_cons.mp h with rfl | hrest
          · exact ⟨List.mem_cons_self, rfl⟩
          · obtain ⟨hmem, hvalue⟩ := ih hrest
            exact ⟨List.mem_cons_of_mem _ hmem, hvalue⟩

/-- Two lists that agree under two maps agree pair by pair. -/
theorem eq_of_mem_zip {α β γ : Type} {f : β → γ} {g : α → γ} {xs : List α} {ys : List β} (h : ys.map f = xs.map g)
    {p : α × β} (hp : p ∈ xs.zip ys) : f p.2 = g p.1 := by
  induction xs generalizing ys with
  | nil => exact absurd hp List.not_mem_nil
  | cons x xs ih =>
      cases ys with
      | nil => exact absurd hp List.not_mem_nil
      | cons y ys =>
          obtain ⟨hhead, htail⟩ := List.cons.inj h
          rcases List.mem_cons.mp hp with rfl | hrest
          · exact hhead
          · exact ih htail hrest

/-- What the pass did to the attributions. -/
structure SplitsLifted (U : Unicode) (s : Settings) (index : ReconIndex) (lines : List BankCreditLine)
    (attrs out : List RailAttribution) (groups : List SplitMatch) : Prop where
  /-- One verdict for each line, in the order of the lines. -/
  keys : out.map RailAttribution.lineKey = lines.map BankCreditLine.key
  /-- A verdict changes exactly when its line is a leg of a group. -/
  changed : ∀ p ∈ lines.zip (attrs.zip out), p.2.2 ≠ p.2.1 ↔ p.1 ∈ groups.flatMap Prod.snd
  /-- A changed verdict was that of an abstained credit without a competing keyword. -/
  eligible : ∀ p ∈ lines.zip (attrs.zip out), p.2.2 ≠ p.2.1 →
    p.2.1.abstained = true ∧ p.1.isCredit = true ∧ (narrationRailSignals U s.pack p.1).items = []
  disjoint : (groups.flatMap Prod.snd).Nodup
  groups : ∀ m ∈ groups, LiftedLegs U s.pack index (splitPool U s index lines attrs) m

/-- **The reconstruction lifts globally unique groups only**: every changed verdict belongs to one of disjoint groups of
    two or three legs, and nothing else sums with a leg of a group. -/
theorem splits_unique (U : Unicode) (s : Settings) (index : ReconIndex) (lines : List BankCreditLine)
    (attrs : List RailAttribution) (hnd : (lines.map BankCreditLine.key).Nodup)
    (hkeys : attrs.map RailAttribution.lineKey = lines.map BankCreditLine.key) (hmargin : s.marginThreshold = 0) :
    ∃ out groups, reconstructSplits U s index lines attrs = .ok out ∧
      SplitsLifted U s index lines attrs out groups := by
  have hlength : attrs.length = lines.length := by
    have h := congrArg List.length hkeys
    rwa [List.length_map, List.length_map] at h
  have hsub : (splitPool U s index lines attrs).Sublist lines := splitPool_sublist hlength
  have hpool := hnd.sublist (hsub.map BankCreditLine.key)
  have hgroups : ∀ m ∈ splitGroups U s index (splitPool U s index lines attrs),
      m ∈ liftedMatches U s index (splitPool U s index lines attrs) := by
    intro m hm
    unfold splitGroups at hm
    split at hm
    · exact absurd hm List.not_mem_nil
    · exact hm
  refine ⟨_, splitGroups U s index (splitPool U s index lines attrs), reconstructSplits_passed hlength,
    ?_, ?_, ?_, ?_, fun m hm => liftedLegs_of_mem hpool (hgroups m hm)⟩
  · have hpairs : ∀ p ∈ lines.zip attrs, p.2.lineKey = p.1.key := fun p hp => eq_of_mem_zip hkeys hp
    rw [List.map_map]
    calc (lines.zip attrs).map (RailAttribution.lineKey ∘ fun p =>
          passed U s index (splitPool U s index lines attrs) p.1 p.2)
        = (lines.zip attrs).map (BankCreditLine.key ∘ Prod.fst) :=
          List.map_congr_left fun p hp => lineKey_passed (hpairs p hp)
      _ = lines.map BankCreditLine.key := by rw [← List.map_map, List.map_fst_zip hlength.ge]
  · intro p hp
    obtain ⟨hmem, hvalue⟩ := mem_zip_map hp
    rw [hvalue]
    exact passed_ne_iff hnd hlength hmargin hmem
  · intro p hp hchanged
    obtain ⟨hmem, hvalue⟩ := mem_zip_map hp
    rw [hvalue] at hchanged
    obtain ⟨m, hm, hleg⟩ := List.mem_flatMap.mp ((passed_ne_iff hnd hlength hmargin hmem).mp hchanged)
    have hcandidate := isSplitCandidate_of_mem_splitPool hnd hlength hmem
      ((liftedLegs_of_mem hpool (hgroups m hm)).sublist.subset hleg)
    obtain ⟨hclosed, hleg⟩ := isSplitCandidate_iff.mp hcandidate
    exact ⟨hclosed, hleg.isCredit, hleg.noCompetitor⟩
  · unfold splitGroups
    split
    · exact List.nodup_nil
    · exact nodup_liftedMatches hpool

/-- Three abstained credits, two of which sum to the settlement's net. -/
theorem splits_unique_whole :
    (wholeLines.map BankCreditLine.key).Nodup ∧
      (wholeLines.map fun line => abstain line 0 []).map RailAttribution.lineKey = wholeLines.map BankCreditLine.key ∧
      ∃ out groups, reconstructSplits asciiUnicode ⟨11 / 20, 0, false, defaultNarrationPack⟩ wholeIndex wholeLines
          (wholeLines.map fun line => abstain line 0 []) = .ok out ∧
        SplitsLifted asciiUnicode ⟨11 / 20, 0, false, defaultNarrationPack⟩ wholeIndex wholeLines
          (wholeLines.map fun line => abstain line 0 []) out groups :=
  have hnd : (wholeLines.map BankCreditLine.key).Nodup := by decide
  ⟨hnd, rfl, splits_unique asciiUnicode ⟨11 / 20, 0, false, defaultNarrationPack⟩ wholeIndex wholeLines
    (wholeLines.map fun line => abstain line 0 []) hnd rfl rfl⟩

/-- There the two are the one group. -/
example : splitGroups asciiUnicode ⟨11 / 20, 0, false, defaultNarrationPack⟩ wholeIndex
    (splitPool asciiUnicode ⟨11 / 20, 0, false, defaultNarrationPack⟩ wholeIndex wholeLines
      (wholeLines.map fun line => abstain line 0 [])) =
    [("S1", [firstLeg, creditLine "q" "NEFT RATN0000088" 40000])] := by decide +kernel

end Untangle
