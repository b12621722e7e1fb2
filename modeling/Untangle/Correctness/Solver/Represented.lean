import Untangle.Correctness.Attribute.Combination
import Untangle.Correctness.Attribute.Threshold
import Untangle.Correctness.Solver.Graph

/-!
# `Correctness.Solver.Represented` — which baseline proofs the graph has an edge for

The builder looks for the ties of a credit again, in its own way. A Razorpay edge of a credit comes from a keyword
for the rail, from a tie that it can read a settlement off, or from a split that it enumerates. A set-sum gives none
of these by itself, so a credit that the baseline proves by one can be without an edge (`proof_kept_iff`).
-/

namespace Untangle

open Lib

variable {U : Unicode} {s : Settings} {gs : GraphSettings} {index : ReconIndex} {lines : List BankCreditLine}
  {line : BankCreditLine} {c : CandidateAssignment} {sid : String} {net : ℤ} {date : Date}

/-! ## The splits the builder enumerates -/

/-- The pool of a settlement is too large to enumerate. -/
def TooLarge (gs : GraphSettings) (elig : List BankCreditLine) : Prop :=
  2 ≤ elig.length ∧ (gs.maxCandidates < elig.length ∨ gs.maxCombinations < combinationCount elig.length)

/-- The group carries a strong signal. -/
def HasStrongLeg (U : Unicode) (gs : GraphSettings) (index : ReconIndex) (lines : List BankCreditLine)
    (sub : List BankCreditLine) : Prop :=
  (sub.any fun leg => (((signalsByKey U gs index lines).get? leg.key).getD []).any fun sig =>
    sig ∈ strongRzpSignals) = true

/-- A group that the loop turns into a candidate, when it visits the settlement. -/
structure Enumerated (U : Unicode) (gs : GraphSettings) (index : ReconIndex) (lines : List BankCreditLine)
    (settlements : List (String × ℤ × Date)) (sid : String) (net : ℤ) (sub : List BankCreditLine) : Prop where
  visited : ∃ date, (sid, net, date) ∈ settlements ∧
    ¬ TooLarge gs (eligibleFor U gs index lines sid net date) ∧
    sub ∈ allSumSubsets (eligibleFor U gs index lines sid net date) net splitDriftPaise splitMaxLegs
  strong : HasStrongLeg U gs index lines sub

/-- The credits of the pools that are too large. -/
theorem mem_unEnumerable {settlements : List (String × ℤ × Date)} {un : List String} {k : String} :
    k ∈ (splitLoop U gs index lines settlements un).2 ↔
      k ∈ un ∨ ∃ sid net date, (sid, net, date) ∈ settlements ∧
        TooLarge gs (eligibleFor U gs index lines sid net date) ∧
        ∃ leg ∈ eligibleFor U gs index lines sid net date, leg.key = k := by
  induction settlements generalizing un with
  | nil => simp [splitLoop]
  | cons p settlements ih =>
      obtain ⟨sid, net, date⟩ := p
      have hcons : (∃ sid' net' date', (sid', net', date') ∈ (sid, net, date) :: settlements ∧
          TooLarge gs (eligibleFor U gs index lines sid' net' date') ∧
          ∃ leg ∈ eligibleFor U gs index lines sid' net' date', leg.key = k) ↔
        (TooLarge gs (eligibleFor U gs index lines sid net date) ∧
            ∃ leg ∈ eligibleFor U gs index lines sid net date, leg.key = k) ∨
          ∃ sid' net' date', (sid', net', date') ∈ settlements ∧
            TooLarge gs (eligibleFor U gs index lines sid' net' date') ∧
            ∃ leg ∈ eligibleFor U gs index lines sid' net' date', leg.key = k := by
        constructor
        · intro h
          obtain ⟨sid', net', date', hmem, hrest⟩ := h
          rcases List.mem_cons.mp hmem with heq | hmem
          · obtain ⟨rfl, rfl, rfl⟩ := heq
            exact Or.inl hrest
          · exact Or.inr ⟨sid', net', date', hmem, hrest⟩
        · intro h
          rcases h with hrest | ⟨sid', net', date', hmem, hrest⟩
          · exact ⟨sid, net, date, List.mem_cons_self, hrest⟩
          · exact ⟨sid', net', date', List.mem_cons_of_mem _ hmem, hrest⟩
      rw [hcons, splitLoop]
      dsimp only
      split
      · rename_i hsmall
        rw [ih]
        have hnot : ¬ TooLarge gs (eligibleFor U gs index lines sid net date) := fun h => absurd h.1 (not_le.mpr hsmall)
        simp [hnot]
      · rename_i hpool
        split
        · rename_i hover
          have hlarge : TooLarge gs (eligibleFor U gs index lines sid net date) := ⟨not_lt.mp hpool, hover⟩
          rw [ih, List.mem_append, List.mem_map, or_assoc]
          simp [hlarge]
        · rename_i hover
          have hnot : ¬ TooLarge gs (eligibleFor U gs index lines sid net date) := fun h => hover h.2
          rw [ih]
          simp [hnot]

/-- A candidate free of the credits set aside is that of an enumerated group. -/
theorem mem_splitLoop_iff {settlements : List (String × ℤ × Date)} {un : List String}
    (hclean : ∀ k ∈ c.creditKeys, k ∉ (splitLoop U gs index lines settlements un).2) :
    c ∈ (splitLoop U gs index lines settlements un).1 ↔
      ∃ sid net sub, Enumerated U gs index lines settlements sid net sub ∧
        c = splitCandidate U gs index (signalsByKey U gs index lines) sid net sub := by
  induction settlements generalizing un with
  | nil =>
      constructor
      · intro h
        exact absurd h List.not_mem_nil
      · intro h
        obtain ⟨_, _, _, henum, _⟩ := h
        obtain ⟨_, hmem, _⟩ := henum.visited
        exact absurd hmem List.not_mem_nil
  | cons p settlements ih =>
      obtain ⟨sid, net, date⟩ := p
      have hlater : ∀ {sid' net' sub}, Enumerated U gs index lines settlements sid' net' sub →
          Enumerated U gs index lines ((sid, net, date) :: settlements) sid' net' sub := by
        intro sid' net' sub henum
        obtain ⟨date', hmem, hrest⟩ := henum.visited
        exact ⟨⟨date', List.mem_cons_of_mem _ hmem, hrest⟩, henum.strong⟩
      -- what is enumerated is enumerated at the head or later
      have hsplit : ∀ {sid' net' sub}, Enumerated U gs index lines ((sid, net, date) :: settlements) sid' net' sub →
          (sid' = sid ∧ net' = net ∧ ¬ TooLarge gs (eligibleFor U gs index lines sid net date) ∧
            sub ∈ allSumSubsets (eligibleFor U gs index lines sid net date) net splitDriftPaise splitMaxLegs) ∨
          Enumerated U gs index lines settlements sid' net' sub := by
        intro sid' net' sub henum
        obtain ⟨date', hmem, hrest⟩ := henum.visited
        rcases List.mem_cons.mp hmem with heq | hmem
        · obtain ⟨rfl, rfl, rfl⟩ := heq
          exact Or.inl ⟨rfl, rfl, hrest⟩
        · exact Or.inr ⟨⟨date', hmem, hrest⟩, henum.strong⟩
      have hnone : (¬ ∃ sub, ¬ TooLarge gs (eligibleFor U gs index lines sid net date) ∧
            sub ∈ allSumSubsets (eligibleFor U gs index lines sid net date) net splitDriftPaise splitMaxLegs) →
          ((∃ sid' net' sub, Enumerated U gs index lines settlements sid' net' sub ∧
              c = splitCandidate U gs index (signalsByKey U gs index lines) sid' net' sub) ↔
            ∃ sid' net' sub, Enumerated U gs index lines ((sid, net, date) :: settlements) sid' net' sub ∧
              c = splitCandidate U gs index (signalsByKey U gs index lines) sid' net' sub) := by
        intro hno
        constructor
        · intro h
          obtain ⟨sid', net', sub, henum, hc⟩ := h
          exact ⟨sid', net', sub, hlater henum, hc⟩
        · intro h
          obtain ⟨sid', net', sub, henum, hc⟩ := h
          rcases hsplit henum with ⟨_, _, hhead⟩ | henum
          · exact absurd ⟨sub, hhead⟩ hno
          · exact ⟨sid', net', sub, henum, hc⟩
      rw [splitLoop] at hclean ⊢
      dsimp only at hclean ⊢
      split at hclean
      · -- a pool of one line has no group
        rename_i hsmall
        rw [if_pos hsmall, ih hclean]
        refine hnone fun h => ?_
        obtain ⟨sub, _, hsub⟩ := h
        obtain ⟨hlist, htwo, _⟩ := mem_allSumSubsets hsub
        exact absurd (htwo.trans hlist.length_le) (not_le.mpr hsmall)
      · rename_i hpool
        rw [if_neg hpool]
        split at hclean
        · rename_i hover
          rw [if_pos hover, ih hclean]
          refine hnone fun h => ?_
          obtain ⟨sub, hnot, _⟩ := h
          exact hnot ⟨not_lt.mp hpool, hover⟩
        · rename_i hover
          rw [if_neg hover]
          dsimp only at hclean ⊢
          have hnot : ¬ TooLarge gs (eligibleFor U gs index lines sid net date) := fun h => hover h.2
          rw [List.mem_append, ih hclean, List.mem_map]
          constructor
          · intro h
            rcases h with ⟨sub, hsub, hc⟩ | ⟨sid', net', sub, henum, hc⟩
            · obtain ⟨hfound, hkept⟩ := List.mem_filter.mp hsub
              rw [Bool.and_eq_true] at hkept
              exact ⟨sid, net, sub, ⟨⟨date, List.mem_cons_self, hnot, hfound⟩, hkept.1⟩, hc.symm⟩
            · exact ⟨sid', net', sub, hlater henum, hc⟩
          · intro h
            obtain ⟨sid', net', sub, henum, hc⟩ := h
            rcases hsplit henum with ⟨rfl, rfl, _, hfound⟩ | hlate
            · refine Or.inl ⟨sub, List.mem_filter.mpr ⟨hfound, ?_⟩, hc.symm⟩
              rw [Bool.and_eq_true, Bool.not_eq_true', List.any_eq_false]
              refine ⟨henum.strong, fun leg hleg hin => ?_⟩
              -- a leg that is set aside already stays so
              have hkey : leg.key ∈ c.creditKeys := by
                rw [hc, (splitCandidate_keys_perm U gs index _ sid' net' sub).mem_iff]
                exact List.mem_map_of_mem hleg
              exact hclean _ hkey (mem_unEnumerable.mpr (Or.inl (of_decide_eq_true hin)))
            · exact Or.inr ⟨sid', net', sub, hlate, hc⟩

/-! ## The Razorpay edges of a credit -/

/-- The builder reads the settlement off a tie: a UTR token of the narration or the whole bank reference, the UTR
    that a suffix tie spells out, or the one settlement of the amount, dated within the window of splits. -/
inductive TiePoints (U : Unicode) (index : ReconIndex) (line : BankCreditLine) (ev : List EvidenceItem)
    (sid : String) : Prop
  | exact (htie : hasSignal ["utr_exact"] ev = true) (tok : String)
      (htok : tok ∈ extractUtrTokens U line.narration ++ ((truthy line.bankRef).map strip).toList)
      (hlisted : index.utrExact U tok = true) (hsid : truthy (index.utrToSid.get? (U.lower tok)) = some sid)
  | suffix (e : EvidenceItem) (he : e ∈ ev) (htie : e.signal = "utr_suffix") (utr : String)
      (hread : suffixUtr e.detail.toList = some utr) (hsid : truthy (index.utrToSid.get? (U.lower utr)) = some sid)
  | amount (htie : hasSignal ["amount_corr"] ev = true)
      (hnet : sid ∈ (index.netToSettlements.get? line.amountPaise).getD [])
      (hdated : datedWithin index.settlementDate splitDateWindow sid line.valueDate = true)

theorem mem_matchedSids {ev : List EvidenceItem} : sid ∈ matchedSids U index line ev ↔ TiePoints U index line ev sid := by
  unfold matchedSids
  dsimp only
  rw [(List.perm_insertionSort _ _).mem_iff, List.mem_dedup, List.mem_append, List.mem_append]
  constructor
  · intro h
    rcases h with (h | h) | h
    · split at h
      · rename_i htie
        obtain ⟨tok, htok, hsome⟩ := List.mem_filterMap.mp h
        split at hsome
        · rename_i hlisted
          exact .exact htie tok htok hlisted hsome
        · exact absurd hsome (by simp)
      · exact absurd h List.not_mem_nil
    · unfold suffixSids at h
      obtain ⟨e, he, hsome⟩ := List.mem_filterMap.mp h
      split at hsome
      · rename_i htie
        obtain ⟨utr, hread, hsid⟩ := Option.bind_eq_some_iff.mp hsome
        exact .suffix e he htie utr hread hsid
      · exact absurd hsome (by simp)
    · split at h
      · rename_i htie
        obtain ⟨hnet, hdated⟩ := List.mem_filter.mp h
        exact .amount htie hnet hdated
      · exact absurd h List.not_mem_nil
  · intro h
    cases h with
    | exact htie tok htok hlisted hsid =>
        rw [if_pos htie]
        exact Or.inl (Or.inl (List.mem_filterMap.mpr ⟨tok, htok, by rw [if_pos hlisted, hsid]⟩))
    | suffix e he htie utr hread hsid =>
        refine Or.inl (Or.inr (List.mem_filterMap.mpr ⟨e, he, ?_⟩))
        rw [if_pos htie, hread]
        exact hsid
    | amount htie hnet hdated =>
        rw [if_pos htie]
        exact Or.inr (List.mem_filter.mpr ⟨hnet, hdated⟩)

theorem TiePoints.tied {ev : List EvidenceItem} (h : TiePoints U index line ev sid) :
    hasSignal rzpTieSignals ev = true := by
  cases h with
  | exact htie _ _ _ _ => exact hasSignal_mono (by decide) htie
  | suffix e he htie _ _ _ => exact List.any_eq_true.mpr ⟨e, he, by simp [htie, rzpTieSignals]⟩
  | amount htie _ _ => exact hasSignal_mono (by decide) htie

/-- A keyword for Razorpay itself, of positive weight and at the threshold. -/
def KeywordEdge (U : Unicode) (gs : GraphSettings) (line : BankCreditLine) : Prop :=
  ∃ p ∈ (narrationRailSignals U gs.pack line).items, p.1 = .razorpaySettlement ∧ 0 < combine p.2 ∧
    ∀ t, gs.threshold = some t → t ≤ combine p.2

/-- A tie that points at a settlement, and a confidence that an elevated threshold lets through. -/
def TieEdge (U : Unicode) (gs : GraphSettings) (index : ReconIndex) (line : BankCreditLine) : Prop :=
  (∃ sid, TiePoints U index line (razorpaySignals U gs.pack index line) sid) ∧
    ∀ t, gs.threshold = some t → defaultThreshold < t → t ≤ tieConfidence (razorpaySignals U gs.pack index line)

/-- The credit is a leg of an enumerated split, none of whose legs is in a pool that is too large. -/
def SplitEdge (U : Unicode) (gs : GraphSettings) (index : ReconIndex) (lines : List BankCreditLine)
    (line : BankCreditLine) : Prop :=
  (∀ t, gs.threshold = some t → t ≤ splitConfidence) ∧
    ∃ sid net sub, Enumerated U gs index lines (splitSettlements index) sid net sub ∧ line ∈ sub ∧
      ∀ leg ∈ sub, ∀ sid' net' date', (sid', net', date') ∈ splitSettlements index →
        TooLarge gs (eligibleFor U gs index lines sid' net' date') →
          ∀ other ∈ eligibleFor U gs index lines sid' net' date', other.key ≠ leg.key

theorem Enumerated.sublist {settlements : List (String × ℤ × Date)} {sub : List BankCreditLine}
    (h : Enumerated U gs index lines settlements sid net sub) : sub.Sublist lines := by
  obtain ⟨date, _, _, hfound⟩ := h.visited
  exact (mem_allSumSubsets hfound).1.trans (List.filter_sublist.trans List.filter_sublist)

/-- The split candidates of the graph. -/
theorem mem_splits (hgate : ∀ t, gs.threshold = some t → t ≤ splitConfidence) :
    (c.isSplit = true ∧ c ∈ (graphCandidates U gs index lines).1) ↔
      ∃ sid net sub, Enumerated U gs index lines (splitSettlements index) sid net sub ∧
        c = splitCandidate U gs index (signalsByKey U gs index lines) sid net sub ∧
        ∀ k ∈ c.creditKeys, k ∉ (splitLoop U gs index lines (splitSettlements index) []).2 := by
  have hon : (gs.threshold.all fun t => decide (t ≤ splitConfidence)) = true := by
    cases ht : gs.threshold with
    | none => rfl
    | some t => simpa using hgate t ht
  unfold graphCandidates
  dsimp only
  rw [if_pos hon, (List.perm_insertionSort _ _).mem_iff, List.mem_filter, List.mem_append]
  constructor
  · intro h
    obtain ⟨hsplit, hmem, hclean⟩ := h
    rw [hsplit, Bool.true_and, Bool.not_eq_true', List.any_eq_false] at hclean
    have hfree : ∀ k ∈ c.creditKeys, k ∉ (splitLoop U gs index lines (splitSettlements index) []).2 :=
      fun k hk hin => hclean k hk (by simpa using hin)
    rcases hmem with hsingle | hmem
    · -- no single candidate is a split
      obtain ⟨ln, _, hc⟩ := List.mem_flatMap.mp hsingle
      unfold singleCandidates at hc
      rcases List.mem_append.mp hc with hc | hc
      · rcases List.mem_cons.mp hc with hc | hc
        · rw [hc] at hsplit
          exact absurd hsplit (by simp [abstainCandidate])
        · rw [(mem_railCandidates hc).single] at hsplit
          exact absurd hsplit (by simp)
      · rw [(mem_settlementCandidates hc).single] at hsplit
        exact absurd hsplit (by simp)
    · obtain ⟨sid, net, sub, henum, heq⟩ := (mem_splitLoop_iff hfree).mp hmem
      exact ⟨sid, net, sub, henum, heq, hfree⟩
  · intro h
    obtain ⟨sid, net, sub, henum, heq, hfree⟩ := h
    have hsplit : c.isSplit = true := by rw [heq]; rfl
    refine ⟨hsplit, Or.inr ((mem_splitLoop_iff hfree).mpr ⟨sid, net, sub, henum, heq⟩), ?_⟩
    rw [hsplit, Bool.true_and, Bool.not_eq_true', List.any_eq_false]
    intro k hk hin
    exact hfree k hk (by simpa using hin)

theorem railCandidate_of_keyword {p : Rail × List EvidenceItem} (hp : p ∈ (narrationRailSignals U gs.pack line).items)
    (hpos : 0 < combine p.2) (hgate : ∀ t, gs.threshold = some t → t ≤ combine p.2) :
    ∃ c ∈ railCandidates U gs line, c.rail = p.1.value := by
  have hopen : ¬ (gs.threshold.any fun t => decide (combine p.2 < t)) = true := by
    cases ht : gs.threshold with
    | none => simp
    | some t => simpa using hgate t ht
  unfold railCandidates
  exact ⟨_, List.mem_filterMap.mpr ⟨p, (List.perm_insertionSort _ _).mem_iff.mpr hp,
    (if_neg hopen).trans (if_pos hpos)⟩, rfl⟩

/-- **The Razorpay edges of a credit.** -/
theorem exists_razorpayEdge_iff (hnd : (lines.map BankCreditLine.key).Nodup) (hline : line ∈ lines)
    (hcredit : isGraphCredit line = true) :
    (∃ c ∈ (buildCandidateGraph U gs index lines).candidates,
        c.rail = Rail.razorpaySettlement.value ∧ line.key ∈ c.creditKeys) ↔
      KeywordEdge U gs line ∨ TieEdge U gs index line ∨ SplitEdge U gs index lines line := by
  have hown : ∀ {ln : BankCreditLine}, ln ∈ lines → ∀ {keys : List String}, keys = [ln.key] →
      line.key ∈ keys → ln = line := by
    intro ln hln keys hkeys hkey
    rw [hkeys, List.mem_singleton] at hkey
    exact line_ext hnd hln hline hkey.symm
  constructor
  · intro h
    obtain ⟨c, hc, hrail, hkey⟩ := h
    obtain ⟨horigin, hclean⟩ := mem_graphCandidates hc
    cases horigin with
    | sink ln _ _ heq =>
        rw [heq] at hrail
        exact absurd hrail (show Rail.unknown.value ≠ Rail.razorpaySettlement.value by decide)
    | rail ln hln _ h =>
        have heq := hown hln h.keys hkey
        subst heq
        obtain ⟨p, hp, _, hname, hev, _⟩ := h.named
        refine Or.inl ⟨p, hp, Rail.value_injective (hname.symm.trans hrail), ?_, fun t ht => ?_⟩
        · exact hev ▸ h.positive
        · exact hev ▸ h.gate t ht
    | settlement ln hln _ h =>
        have heq := hown hln h.keys hkey
        subst heq
        refine Or.inr (Or.inl ⟨⟨c.targetId, mem_matchedSids.mp h.target⟩, fun t ht hlt => ?_⟩)
        exact h.evidence ▸ h.gate t ht hlt
    | split sid net date sub hsplit heq hgate =>
        have hin : c.isSplit = true ∧ c ∈ (graphCandidates U gs index lines).1 := ⟨by rw [heq]; rfl, hc⟩
        obtain ⟨sid', net', sub', henum, heq', hfree⟩ := (mem_splits hgate).mp hin
        refine Or.inr (Or.inr ⟨hgate, sid', net', sub', henum, ?_, ?_⟩)
        · rw [heq', (splitCandidate_keys_perm U gs index _ sid' net' sub').mem_iff] at hkey
          obtain ⟨leg, hleg, hlegkey⟩ := List.mem_map.mp hkey
          exact line_ext hnd (henum.sublist.subset hleg) hline hlegkey ▸ hleg
        · intro leg hleg sid'' net'' date'' hmem hlarge other hother hsame
          have hlegkey : leg.key ∈ c.creditKeys := by
            rw [heq', (splitCandidate_keys_perm U gs index _ sid' net' sub').mem_iff]
            exact List.mem_map_of_mem hleg
          exact hfree _ hlegkey (mem_unEnumerable.mpr (Or.inr ⟨sid'', net'', date'', hmem, hlarge, other, hother, hsame⟩))
  · intro h
    rcases h with ⟨p, hp, hrail, hpos, hgate⟩ | ⟨⟨sid, hsid⟩, hgate⟩ | ⟨hgate, sid, net, sub, henum, hmem, hfree⟩
    · -- the keyword's candidate
      obtain ⟨c, hc, hname⟩ := railCandidate_of_keyword hp hpos hgate
      refine ⟨c, railCandidate_mem hline hcredit hc, by rw [hname, hrail], ?_⟩
      rw [(mem_railCandidates hc).keys]
      exact List.mem_singleton_self _
    · have hc : ∃ c, c ∈ settlementCandidates U gs index line := by
        unfold settlementCandidates
        dsimp only
        rw [hsid.tied, if_neg (by simp), if_neg]
        · exact ⟨_, List.mem_map_of_mem (mem_matchedSids.mpr hsid)⟩
        · cases ht : gs.threshold with
          | none => simp
          | some t =>
              intro hweak
              rw [Option.any_some, Bool.and_eq_true, decide_eq_true_eq, decide_eq_true_eq] at hweak
              exact absurd (hgate t ht hweak.1) (not_le.mpr hweak.2)
      obtain ⟨c, hc⟩ := hc
      have hset := mem_settlementCandidates hc
      refine ⟨c, settlementCandidate_mem hline hcredit hc, hset.rail, ?_⟩
      rw [hset.keys]
      exact List.mem_singleton_self _
    · have hperm := splitCandidate_keys_perm U gs index (signalsByKey U gs index lines) sid net sub
      have hin := (mem_splits (c := splitCandidate U gs index (signalsByKey U gs index lines) sid net sub) hgate).mpr
        ⟨sid, net, sub, henum, rfl, fun k hk => by
          rw [hperm.mem_iff] at hk
          obtain ⟨leg, hleg, rfl⟩ := List.mem_map.mp hk
          intro hun
          rcases mem_unEnumerable.mp hun with hnil | ⟨sid', net', date', hvis, hlarge, other, hother, hsame⟩
          · exact absurd hnil List.not_mem_nil
          · exact hfree leg hleg sid' net' date' hvis hlarge other hother hsame⟩
      exact ⟨_, hin.2, rfl, hperm.mem_iff.mpr (List.mem_map_of_mem hmem)⟩

/-! ## The score of a baseline proof -/

/-- A credit's own Razorpay verdict carries an exact UTR, or its evidence clears the threshold. -/
theorem lineVerdict_score (hcredit : line.isCredit = true) (h : IsRazorpay (lineVerdict U s index line)) :
    hasSignal ["utr_exact"] (razorpaySignals U s.pack index line) = true ∨
      s.threshold ≤ combine (lineVerdict U s index line).evidence := by
  unfold lineVerdict at h ⊢
  cases hd : lineDecision U s.threshold s.pack index line with
  | settled a =>
      rw [hd] at h
      have hopen : a.abstained = false := h.2
      rcases lineDecision_settled hd with habs | ⟨_, hdebit⟩
      · exact absurd (habs.closed.symm.trans hopen) (by simp)
      · rw [hdebit h.1] at hcredit
        exact absurd hcredit (by simp)
  | candidate evidence score tier =>
      rw [hd] at h
      have hevidence : (Decision.finish s line (narrationRailSignals U s.pack line)
          (.candidate evidence score tier)).evidence = evidence := (accepted_of_isRazorpay h).evidence
      rw [hevidence, ← lineDecision_score hd]
      rcases (lineDecision_candidate hd).2 with ⟨hexact, _⟩ | ⟨_, hclears⟩
      · exact Or.inl hexact
      · exact Or.inr hclears

/-- **A set-sum points at no settlement**: there is no hard tie beside it, and no settlement of the amount near. -/
theorem setsum_unread {pack : NarrationEvidencePack} {sids : List String}
    (hsoft : hasSignal hardRzpSignals (razorpaySignals U pack index line) = false)
    (hspec : SetsumSpec index line (.unique sids)) :
    ¬ TiePoints U index line (razorpaySignals U pack index line) sid := by
  intro h
  have hno : ∀ e ∈ razorpaySignals U pack index line, e.signal ∉ hardRzpSignals := by
    intro e he hin
    have hany : hasSignal hardRzpSignals (razorpaySignals U pack index line) = true :=
      List.any_eq_true.mpr ⟨e, he, decide_eq_true hin⟩
    rw [hsoft] at hany
    exact absurd hany (by simp)
  cases h with
  | exact htie _ _ _ _ =>
      rw [hasSignal_mono (by decide) htie] at hsoft
      exact absurd hsoft (by simp)
  | suffix e he htie _ _ _ =>
      refine hno e he ?_
      rw [htie]
      decide
  | amount _ hnet hdated =>
      cases hspec with
      | unique _ hsingles _ _ _ _ =>
          have hin : sid ∈ setsumSingles index line := List.mem_filter.mpr ⟨hnet, hdated⟩
          rw [hsingles] at hin
          exact absurd hin List.not_mem_nil

/-! ## Baseline proofs and edges -/

/-- The settings `run_global_solver` builds its graph with. -/
def Settings.graphSettings (s : Settings) : GraphSettings where
  threshold := some s.threshold
  pack := s.pack

theorem tieConfidence_exact {ev : List EvidenceItem} (h : hasSignal ["utr_exact"] ev = true) :
    tieConfidence ev = 19 / 20 := if_pos h

theorem tieConfidence_soft {ev : List EvidenceItem} (h : ¬ hasSignal ["utr_exact"] ev = true) :
    tieConfidence ev = combine ev := if_neg h

/-- A tie is read as a settlement, and an exact UTR is not asked for more than it is worth. -/
def ReadableTie (U : Unicode) (s : Settings) (index : ReconIndex) (line : BankCreditLine) : Prop :=
  (∃ sid, TiePoints U index line (razorpaySignals U s.pack index line) sid) ∧
    (hasSignal ["utr_exact"] (razorpaySignals U s.pack index line) = true → s.threshold ≤ 19 / 20)

/-- **Which baseline proofs have an edge**: a credit that `attribute_line` proves has a Razorpay edge exactly when a
    tie of it is read, a keyword for the rail has positive weight, or it is a leg of an enumerated split. -/
theorem proof_kept_iff (U : Unicode) (s : Settings) (index : ReconIndex) (lines : List BankCreditLine)
    (hnd : (lines.map BankCreditLine.key).Nodup) (line : BankCreditLine) (hline : line ∈ lines)
    (hcredit : line.isCredit = true) (hpos : 0 < line.amountPaise) (a : RailAttribution)
    (ha : attributeLine U s index line = .ok a) (hproven : IsRazorpay a) :
    (∃ c ∈ (buildCandidateGraph U s.graphSettings index lines).candidates,
        c.rail = Rail.razorpaySettlement.value ∧ line.key ∈ c.creditKeys) ↔
      ReadableTie U s index line ∨ KeywordEdge U s.graphSettings line ∨ SplitEdge U s.graphSettings index lines line := by
  have hgraph : isGraphCredit line = true := by
    unfold isGraphCredit
    rw [hcredit, decide_eq_true hpos]
    rfl
  rw [attributeLine_eq, Except.ok.injEq] at ha
  have hown : IsRazorpay (lineVerdict U s index line) := by
    rw [← ha] at hproven
    exact hproven
  rw [exists_razorpayEdge_iff hnd hline hgraph]
  have htie : TieEdge U s.graphSettings index line → ReadableTie U s index line := by
    intro h
    refine ⟨h.1, fun hexact => ?_⟩
    by_contra hhigh
    have hgate : s.threshold ≤ tieConfidence (razorpaySignals U s.pack index line) :=
      h.2 s.threshold rfl (lt_trans (by decide +kernel) (not_le.mp hhigh))
    rw [tieConfidence_exact hexact] at hgate
    exact hhigh hgate
  have hback : ReadableTie U s index line → TieEdge U s.graphSettings index line ∨ KeywordEdge U s.graphSettings line := by
    intro h
    obtain ⟨⟨sid, hsid⟩, hexact⟩ := h
    by_cases hutr : hasSignal ["utr_exact"] (razorpaySignals U s.pack index line) = true
    · refine Or.inl ⟨⟨sid, hsid⟩, fun t ht _ => ?_⟩
      show t ≤ tieConfidence (razorpaySignals U s.pack index line)
      rw [tieConfidence_exact hutr, ← Option.some.inj ht]
      exact hexact hutr
    · have hclears := (lineVerdict_score hcredit hown).resolve_left hutr
      have horigin := lineVerdict_origin hown
      generalize (lineVerdict U s index line).evidence = evidence at hclears horigin
      cases horigin with
      | tied _ _ =>
          refine Or.inl ⟨⟨sid, hsid⟩, fun t ht _ => ?_⟩
          show t ≤ tieConfidence (razorpaySignals U s.pack index line)
          rw [tieConfidence_soft hutr, ← Option.some.inj ht]
          exact hclears
      | joined _ hsoft sids hspec => exact absurd hsid (setsum_unread hsoft hspec)
      | keyword hp hrail =>
          -- above the default the keyword is worth something, up to it any tie passes
          by_cases hhigh : defaultThreshold < s.threshold
          · refine Or.inr ⟨_, hp, hrail, ?_, fun t ht => Option.some.inj ht ▸ hclears⟩
            exact lt_of_lt_of_le (lt_trans (by decide +kernel) hhigh) hclears
          · refine Or.inl ⟨⟨sid, hsid⟩, fun t ht hlt => ?_⟩
            rw [← Option.some.inj ht] at hlt
            exact absurd hlt hhigh
  constructor
  · intro h
    rcases h with hkeyword | hedge | hsplit
    · exact Or.inr (Or.inl hkeyword)
    · exact Or.inl (htie hedge)
    · exact Or.inr (Or.inr hsplit)
  · intro h
    rcases h with hread | hkeyword | hsplit
    · rcases hback hread with hedge | hkeyword
      · exact Or.inr (Or.inl hedge)
      · exact Or.inl hkeyword
    · exact Or.inl hkeyword
    · exact Or.inr (Or.inr hsplit)

/-- A credit with an exact UTR, as `attribute_line` proves it. -/
def exactUtrProof : RailAttribution :=
  (lineDecision asciiUnicode (11 / 20) defaultNarrationPack (ReconIndex.ofRows asciiUnicode exactUtrReport)
    (creditLine "a" "NEFT 1111111111aaaaaa" 70000)).finish ⟨11 / 20, 0, false, defaultNarrationPack⟩
    (creditLine "a" "NEFT 1111111111aaaaaa" 70000)
    (narrationRailSignals asciiUnicode defaultNarrationPack (creditLine "a" "NEFT 1111111111aaaaaa" 70000))

theorem proof_kept_iff_exact :
    IsRazorpay exactUtrProof ∧
      ((∃ c ∈ (buildCandidateGraph asciiUnicode
          (Settings.graphSettings ⟨11 / 20, 0, false, defaultNarrationPack⟩)
          (ReconIndex.ofRows asciiUnicode exactUtrReport) exactUtrLines).candidates,
          c.rail = Rail.razorpaySettlement.value ∧ "a" ∈ c.creditKeys) ↔
        ReadableTie asciiUnicode ⟨11 / 20, 0, false, defaultNarrationPack⟩
            (ReconIndex.ofRows asciiUnicode exactUtrReport) (creditLine "a" "NEFT 1111111111aaaaaa" 70000) ∨
          KeywordEdge asciiUnicode (Settings.graphSettings ⟨11 / 20, 0, false, defaultNarrationPack⟩)
            (creditLine "a" "NEFT 1111111111aaaaaa" 70000) ∨
          SplitEdge asciiUnicode (Settings.graphSettings ⟨11 / 20, 0, false, defaultNarrationPack⟩)
            (ReconIndex.ofRows asciiUnicode exactUtrReport) exactUtrLines
            (creditLine "a" "NEFT 1111111111aaaaaa" 70000)) :=
  have hproven : IsRazorpay exactUtrProof := by
    unfold IsRazorpay
    decide +kernel
  ⟨hproven, proof_kept_iff asciiUnicode ⟨11 / 20, 0, false, defaultNarrationPack⟩
    (ReconIndex.ofRows asciiUnicode exactUtrReport) exactUtrLines (by decide)
    (creditLine "a" "NEFT 1111111111aaaaaa" 70000) (List.mem_singleton_self _) rfl (by decide) exactUtrProof
    (attributeLine_eq _ _ _ _) hproven⟩

def sumCredit : BankCreditLine := creditLine "a" "NEFT RATN0000088" 130000

def sumIndex : ReconIndex :=
  ReconIndex.ofRows asciiUnicode [settledRow "pay_1" "S1" none 100000, settledRow "pay_2" "S2" none 30000]

/-- **A set-sum without an edge**: the credit is proven as the sum of two settlements, and all its graph offers is
    to abstain. -/
theorem setsum_without_edge :
    ((attributeLine asciiUnicode ⟨11 / 20, 0, false, defaultNarrationPack⟩ sumIndex sumCredit).map
        fun a => (a.rail, a.abstained)) = .ok ("razorpay_settlement", false) ∧
      ((buildCandidateGraph asciiUnicode (Settings.graphSettings ⟨11 / 20, 0, false, defaultNarrationPack⟩) sumIndex
        [sumCredit]).candidates.map fun c => (c.creditKeys, c.rail)) = [(["a"], "UNKNOWN")] :=
  ⟨by decide +kernel, by decide +kernel⟩

end Untangle
