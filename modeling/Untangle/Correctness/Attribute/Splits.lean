import Untangle.Correctness.Attribute.Pipeline

/-!
# `Correctness.Attribute.Splits` — which legs are lifted, without the order of anything

Phase 1 enumerates, phase 2 counts. For candidates with distinct keys both speak about sets: a match is a
settlement with a set of two or three eligible keys whose amounts sum to its net within the tolerance
(`IsMatch`), and a key is lifted iff it belongs to a match that no other match touches (`LiftedGroup`). The
equivalence `mem_assignedLegs` is what later modules use; neither side of it mentions an order.
-/

namespace Untangle

open Lib

/-! ## Counting -/

section Counting

variable {α β : Type} [DecidableEq β]

theorem length_filter_eq_one {l : List α} (hnd : l.Nodup) {p : α → Bool} {a : α} (ha : a ∈ l)
    (hp : p a = true) : (l.filter p).length = 1 ↔ ∀ b ∈ l, p b = true → b = a := by
  constructor
  · intro h b hb hpb
    obtain ⟨c, hc⟩ := List.length_eq_one_iff.mp h
    have hac : a ∈ l.filter p := List.mem_filter.mpr ⟨ha, hp⟩
    have hbc : b ∈ l.filter p := List.mem_filter.mpr ⟨hb, hpb⟩
    rw [hc, List.mem_singleton] at hac hbc
    rw [hac, hbc]
  · intro h
    have hfin : l.filter p = [a] := by
      refine List.perm_singleton.mp ?_
      rw [List.perm_ext_iff_of_nodup (hnd.filter _) (List.nodup_singleton a)]
      intro b
      rw [List.mem_filter, List.mem_singleton]
      exact ⟨fun hb => h b hb.1 hb.2, fun hb => hb ▸ ⟨ha, hp⟩⟩
    rw [hfin, List.length_singleton]

/-- The image of `a` is met once iff no other element has it. -/
theorem count_map_eq_one {l : List α} (hnd : l.Nodup) (f : α → β) {a : α} (ha : a ∈ l) :
    (l.map f).count (f a) = 1 ↔ ∀ b ∈ l, f b = f a → b = a := by
  have hcount : (l.map f).count (f a) = (l.filter fun b => f b = f a).length := by
    rw [List.count_eq_countP, List.countP_map, List.countP_eq_length_filter]
    congr 1
  rw [hcount, length_filter_eq_one hnd ha (by simp)]
  simp

/-- `x` is met once in the concatenation iff it is a member of one part only. -/
theorem count_flatMap_eq_one {l : List α} (hnd : l.Nodup) (g : α → List β)
    (hg : ∀ a ∈ l, (g a).Nodup) {a : α} (ha : a ∈ l) {x : β} (hx : x ∈ g a) :
    (l.flatMap g).count x = 1 ↔ ∀ b ∈ l, x ∈ g b → b = a := by
  have hcount : ∀ l' : List α, (∀ b ∈ l', (g b).Nodup) →
      (l'.flatMap g).count x = (l'.filter fun b => x ∈ g b).length := by
    intro l'
    induction l' with
    | nil => intro _; rfl
    | cons b l' ih =>
        intro hb
        rw [List.flatMap_cons, List.count_append, ih fun c hc => hb c (List.mem_cons_of_mem _ hc),
          List.filter_cons]
        by_cases hxb : x ∈ g b
        · rw [List.count_eq_one_of_mem (hb b List.mem_cons_self) hxb, if_pos (by simpa using hxb),
            List.length_cons, Nat.add_comm]
        · rw [List.count_eq_zero_of_not_mem hxb, if_neg (by simpa using hxb), Nat.zero_add]
  rw [hcount l hg, length_filter_eq_one hnd ha (by simpa using hx)]
  simp

end Counting

/-! ## Phase 1 -/

section Phase1

variable {index : ReconIndex} {cands : List BankCreditLine}

/-- The settlement has a positive net and a settled date. -/
structure Payable (index : ReconIndex) (sid : String) (net : ℤ) (date : Date) : Prop where
  netIs : index.settlementNet.get? sid = some net
  pos : 0 < net
  dated : index.settlementDate.get? sid = some date

theorem mem_splitSettlements {sid : String} {net : ℤ} {date : Date} :
    (sid, net, date) ∈ splitSettlements index ↔ Payable index sid net date := by
  unfold splitSettlements
  rw [List.mem_filterMap]
  constructor
  · intro h
    obtain ⟨p, hp, hsome⟩ := h
    rw [(List.perm_insertionSort _ _).mem_iff] at hp
    split at hsome
    · exact absurd hsome (by simp)
    · rename_i hpos
      obtain ⟨d, hd, heq⟩ := Option.map_eq_some_iff.mp hsome
      simp only [Prod.mk.injEq] at heq
      obtain ⟨rfl, rfl, rfl⟩ := heq
      exact ⟨Dict.get?_of_mem hp, not_le.mp hpos, hd⟩
  · intro h
    refine ⟨(sid, net), (List.perm_insertionSort _ _).mem_iff.mpr (Dict.get?_eq_some.mp h.netIs), ?_⟩
    rw [if_neg (not_le.mpr h.pos), h.dated]
    rfl

theorem nodup_splitSettlements (index : ReconIndex) :
    ((splitSettlements index).map Prod.fst).Nodup := by
  have hsorted : ((index.settlementNet.items.insertionSort fun p q => p.1 ≤ q.1).map Prod.fst).Nodup :=
    ((List.perm_insertionSort _ _).map Prod.fst).nodup_iff.mpr index.settlementNet.nodup
  refine hsorted.sublist ?_
  unfold splitSettlements
  induction index.settlementNet.items.insertionSort fun p q => p.1 ≤ q.1 with
  | nil => simp
  | cons p l ih =>
      rw [List.filterMap_cons, List.map_cons]
      split
      · exact ih.cons _
      · rename_i q hq
        split at hq
        · exact absurd hq (by simp)
        · obtain ⟨d, _, rfl⟩ := Option.map_eq_some_iff.mp hq
          exact ih.cons_cons _

/-- The amount of a key among the candidates (zero for a key that is none). -/
def amountOfKey (cands : List BankCreditLine) (key : String) : ℤ :=
  ((cands.find? fun c => c.key = key).map BankCreditLine.amountPaise).getD 0

theorem line_ext (hnd : (cands.map BankCreditLine.key).Nodup) {c d : BankCreditLine} (hc : c ∈ cands)
    (hd : d ∈ cands) (h : c.key = d.key) : c = d := List.inj_on_of_nodup_map hnd hc hd h

theorem amountOfKey_mem (hnd : (cands.map BankCreditLine.key).Nodup) {c : BankCreditLine}
    (h : c ∈ cands) : amountOfKey cands c.key = c.amountPaise := by
  unfold amountOfKey
  cases hfind : cands.find? fun d => d.key = c.key with
  | none =>
      have hno := List.find?_eq_none.mp hfind c h
      simp at hno
  | some d =>
      have hkey := List.find?_some hfind
      rw [decide_eq_true_eq] at hkey
      rw [line_ext hnd (List.mem_of_find?_eq_some hfind) h hkey]
      rfl

theorem mem_keySet {combo : List BankCreditLine} {key : String} :
    key ∈ keySet combo ↔ ∃ c ∈ combo, c.key = key := by
  simp [keySet]

/-- The subsets found are sublists of two or three legs within the tolerance, -/
theorem mem_allSumSubsets {items sub : List BankCreditLine} {target tol : ℤ}
    (h : sub ∈ allSumSubsets items target tol splitMaxLegs) :
    sub.Sublist items ∧ 2 ≤ sub.length ∧ sub.length ≤ 3 ∧
      |(sub.map BankCreditLine.amountPaise).sum - target| ≤ tol := by
  have hmem := (distinctBy_sublist keySet _).subset h
  obtain ⟨hcombo, htol⟩ := List.mem_filter.mp hmem
  rw [List.mem_flatMap] at hcombo
  obtain ⟨k, hk, hcombo⟩ := hcombo
  obtain ⟨hsub, hlen⟩ := mem_combinations.mp hcombo
  have hk' : k = 2 ∨ k = 3 := by
    have hrange : k ∈ [2, 3] := hk
    simpa using hrange
  exact ⟨hsub, by omega, by omega, of_decide_eq_true htol⟩

/-- and as key sets they are exactly the sum sets, each found once. -/
theorem keySets_allSumSubsets {items : List BankCreditLine} (hnd : (items.map BankCreditLine.key).Nodup)
    (target tol : ℤ) :
    ((allSumSubsets items target tol splitMaxLegs).map keySet).Nodup ∧
      ∀ K, (∃ sub ∈ allSumSubsets items target tol splitMaxLegs, keySet sub = K) ↔
        K ∈ sumSets (keySet items) (amountOfKey items) 2 3 target tol := by
  have hsum : ∀ sub : List BankCreditLine, sub.Sublist items →
      ∑ k ∈ keySet sub, amountOfKey items k = (sub.map BankCreditLine.amountPaise).sum :=
    fun sub hsub => sum_identities hnd (fun c hc => amountOfKey_mem hnd hc) hsub
  have hcard : ∀ sub : List BankCreditLine, sub.Sublist items → (keySet sub).card = sub.length :=
    fun sub hsub => card_identities hnd hsub
  refine ⟨nodup_map_distinctBy _ _, ?_⟩
  intro K
  rw [mem_sumSets]
  constructor
  · intro h
    obtain ⟨sub, hsub, rfl⟩ := h
    obtain ⟨hlist, hlo, hhi, htol⟩ := mem_allSumSubsets hsub
    rw [hcard sub hlist, hsum sub hlist]
    exact ⟨identities_subset hlist, hlo, hhi, htol⟩
  · intro h
    obtain ⟨hsubset, hlo, hhi, htol⟩ := h
    obtain ⟨sub, hlist, hK⟩ := exists_sublist_of_subset hsubset
    have hK' : keySet sub = K := hK
    rw [← hK', hcard sub hlist] at hlo hhi
    rw [← hK', hsum sub hlist] at htol
    have hmem : keySet sub ∈ ((allSumSubsets items target tol splitMaxLegs).map keySet).toFinset := by
      unfold allSumSubsets
      rw [toFinset_map_distinctBy, List.mem_toFinset]
      refine List.mem_map_of_mem (List.mem_filter.mpr ⟨?_, decide_eq_true htol⟩)
      rw [List.mem_flatMap]
      refine ⟨sub.length, ?_, mem_combinations.mpr ⟨hlist, rfl⟩⟩
      show sub.length ∈ [2, 3]
      have : sub.length = 2 ∨ sub.length = 3 := by omega
      simpa using this
    obtain ⟨sub', hsub', heq⟩ := List.mem_map.mp (List.mem_toFinset.mp hmem)
    exact ⟨sub', hsub', heq.trans hK'⟩

theorem mem_collectMatches {m : SplitMatch} (settlements : List (String × ℤ × Date)) :
    m ∈ (collectMatches cands settlements).1 ↔
      ∃ net date, (m.1, net, date) ∈ settlements ∧ 2 ≤ (eligibleLegs cands net date).length ∧
        (eligibleLegs cands net date).length ≤ splitMaxCandidates ∧
        m.2 ∈ allSumSubsets (eligibleLegs cands net date) net splitDriftPaise splitMaxLegs := by
  induction settlements with
  | nil => simp [collectMatches]
  | cons st rest ih =>
      obtain ⟨sid, net, date⟩ := st
      unfold collectMatches
      dsimp only
      have hhead : ∀ net' date', (m.1, net', date') ∈ (sid, net, date) :: rest ↔
          (m.1 = sid ∧ net' = net ∧ date' = date) ∨ (m.1, net', date') ∈ rest := by
        intro net' date'
        simp
      simp only [hhead, or_and_right, exists_or]
      rw [← ih]
      split
      · rename_i hsmall
        refine ⟨Or.inr, fun h => h.elim (fun h => ?_) id⟩
        obtain ⟨net', date', ⟨_, rfl, rfl⟩, hlen, _⟩ := h
        omega
      · split
        · rename_i hlarge
          refine ⟨Or.inr, fun h => h.elim (fun h => ?_) id⟩
          obtain ⟨net', date', ⟨_, rfl, rfl⟩, _, hle, _⟩ := h
          exact absurd hle (not_le.mpr hlarge)
        · rename_i hsmall hlarge
          rw [List.mem_append]
          refine or_congr_left ⟨fun h => ?_, fun h => ?_⟩
          · obtain ⟨sub, hsub, rfl⟩ := List.mem_map.mp h
            exact ⟨net, date, ⟨rfl, rfl, rfl⟩, not_lt.mp hsmall, not_lt.mp hlarge, hsub⟩
          · obtain ⟨net', date', ⟨hsid, rfl, rfl⟩, _, _, hsub⟩ := h
            exact List.mem_map.mpr ⟨m.2, hsub, by rw [← hsid]⟩

theorem mem_poisoned {key : String} (settlements : List (String × ℤ × Date)) :
    key ∈ (collectMatches cands settlements).2 ↔
      ∃ sid net date, (sid, net, date) ∈ settlements ∧
        splitMaxCandidates < (eligibleLegs cands net date).length ∧
        key ∈ keySet (eligibleLegs cands net date) := by
  induction settlements with
  | nil => simp [collectMatches]
  | cons st rest ih =>
      obtain ⟨sid, net, date⟩ := st
      unfold collectMatches
      dsimp only
      have hhead : ∀ sid' net' date', (sid', net', date') ∈ (sid, net, date) :: rest ↔
          (sid' = sid ∧ net' = net ∧ date' = date) ∨ (sid', net', date') ∈ rest := by
        intro sid' net' date'
        simp
      simp only [hhead, or_and_right, exists_or]
      rw [← ih]
      split
      · rename_i hsmall
        refine ⟨Or.inr, fun h => h.elim (fun h => ?_) id⟩
        obtain ⟨_, net', date', ⟨_, rfl, rfl⟩, hlen, _⟩ := h
        exact absurd hlen (by unfold splitMaxCandidates; omega)
      · split
        · rename_i hlarge
          rw [List.mem_append]
          refine or_congr_left ⟨fun h => ?_, fun h => ?_⟩
          · exact ⟨sid, net, date, ⟨rfl, rfl, rfl⟩, hlarge, mem_keySet.mpr (List.mem_map.mp h)⟩
          · obtain ⟨_, net', date', ⟨_, rfl, rfl⟩, _, hkey⟩ := h
            exact List.mem_map.mpr (mem_keySet.mp hkey)
        · rename_i hsmall hlarge
          refine ⟨Or.inr, fun h => h.elim (fun h => ?_) id⟩
          obtain ⟨_, net', date', ⟨_, rfl, rfl⟩, hlen, _⟩ := h
          exact absurd hlen hlarge

theorem eligibleLegs_nodup (hnd : (cands.map BankCreditLine.key).Nodup) (net : ℤ) (date : Date) :
    ((eligibleLegs cands net date).map BankCreditLine.key).Nodup :=
  hnd.sublist (List.filter_sublist.map _)

/-- No match is found twice. -/
theorem nodup_collectMatches (hnd : (cands.map BankCreditLine.key).Nodup)
    {settlements : List (String × ℤ × Date)} (hsids : (settlements.map Prod.fst).Nodup) :
    ((collectMatches cands settlements).1.map fun m => (m.1, keySet m.2)).Nodup := by
  induction settlements with
  | nil => exact List.nodup_nil
  | cons st rest ih =>
      obtain ⟨sid, net, date⟩ := st
      rw [List.map_cons, List.nodup_cons] at hsids
      have hrest := ih hsids.2
      unfold collectMatches
      dsimp only
      split
      · exact hrest
      · split
        · exact hrest
        · rw [List.map_append, List.map_map]
          refine List.nodup_append.mpr ⟨?_, hrest, ?_⟩
          · have hsets := (keySets_allSumSubsets (eligibleLegs_nodup hnd net date) net
              splitDriftPaise).1
            have hpair : (fun sub => ((sid, sub).1, keySet (sid, sub).2))
                = (fun K => (sid, K)) ∘ keySet := rfl
            show ((allSumSubsets _ _ _ _).map fun sub => ((sid, sub).1, keySet (sid, sub).2)).Nodup
            rw [hpair, ← List.map_map]
            exact hsets.map fun K K' h => (Prod.mk.injEq _ _ _ _ ▸ h).2
          · intro p hp q hq heq
            obtain ⟨sub, _, rfl⟩ := List.mem_map.mp hp
            obtain ⟨m, hm, rfl⟩ := List.mem_map.mp hq
            obtain ⟨net', date', hmem, _⟩ := (mem_collectMatches rest).mp hm
            have hsid : sid = m.1 := congrArg Prod.fst heq
            exact hsids.1 (hsid ▸ List.mem_map.mpr ⟨_, hmem, rfl⟩)

/-- A match, as a set of keys: it does not matter in which order anything was visited. -/
def IsMatch (index : ReconIndex) (cands : List BankCreditLine) (sid : String) (K : Finset String) : Prop :=
  ∃ net date, Payable index sid net date ∧
    (eligibleLegs cands net date).length ≤ splitMaxCandidates ∧
    K ∈ sumSets (keySet (eligibleLegs cands net date)) (amountOfKey cands) 2 3 net splitDriftPaise

/-- The key is in the pool of a settlement whose pool is too large to enumerate. -/
def Poisoned (index : ReconIndex) (cands : List BankCreditLine) (key : String) : Prop :=
  ∃ sid net date, Payable index sid net date ∧
    splitMaxCandidates < (eligibleLegs cands net date).length ∧
    key ∈ keySet (eligibleLegs cands net date)

theorem amountOfKey_eligible (hnd : (cands.map BankCreditLine.key).Nodup) (net : ℤ) (date : Date)
    {key : String} (h : key ∈ keySet (eligibleLegs cands net date)) :
    amountOfKey (eligibleLegs cands net date) key = amountOfKey cands key := by
  obtain ⟨c, hc, rfl⟩ := mem_keySet.mp h
  rw [amountOfKey_mem (eligibleLegs_nodup hnd net date) hc,
    amountOfKey_mem hnd (List.mem_filter.mp hc).1]

/-- **Phase 1** finds the matches, and nothing else. -/
theorem exists_found_iff (hnd : (cands.map BankCreditLine.key).Nodup) {sid : String}
    {K : Finset String} :
    (∃ m ∈ (collectMatches cands (splitSettlements index)).1, m.1 = sid ∧ keySet m.2 = K) ↔
      IsMatch index cands sid K := by
  have hsets : ∀ net date, (∃ sub ∈ allSumSubsets (eligibleLegs cands net date) net splitDriftPaise
        splitMaxLegs, keySet sub = K) ↔
      K ∈ sumSets (keySet (eligibleLegs cands net date)) (amountOfKey cands) 2 3 net
        splitDriftPaise := by
    intro net date
    rw [(keySets_allSumSubsets (eligibleLegs_nodup hnd net date) net splitDriftPaise).2,
      sumSets_congr fun key hkey => amountOfKey_eligible hnd net date hkey]
  constructor
  · intro h
    obtain ⟨m, hm, rfl, rfl⟩ := h
    obtain ⟨net, date, hmem, _, hle, hsub⟩ := (mem_collectMatches _).mp hm
    exact ⟨net, date, mem_splitSettlements.mp hmem, hle, (hsets net date).mp ⟨m.2, hsub, rfl⟩⟩
  · intro h
    obtain ⟨net, date, hpay, hle, hK⟩ := h
    obtain ⟨sub, hsub, rfl⟩ := (hsets net date).mpr hK
    obtain ⟨hlist, hlo, _⟩ := mem_allSumSubsets hsub
    exact ⟨(sid, sub), (mem_collectMatches _).mpr
      ⟨net, date, mem_splitSettlements.mpr hpay, hlo.trans hlist.length_le, hle, hsub⟩, rfl, rfl⟩

theorem poisoned_iff {key : String} :
    key ∈ (collectMatches cands (splitSettlements index)).2 ↔ Poisoned index cands key := by
  rw [mem_poisoned]
  unfold Poisoned
  simp only [mem_splitSettlements]

/-- The legs of a match are two or three candidates. -/
theorem IsMatch.legs {sid : String} {K : Finset String} (h : IsMatch index cands sid K) :
    K ⊆ keySet cands ∧ 2 ≤ K.card ∧ K.card ≤ 3 := by
  obtain ⟨net, date, _, _, hK⟩ := h
  obtain ⟨hsub, hlo, hhi, _⟩ := mem_sumSets.mp hK
  refine ⟨fun k hk => ?_, hlo, hhi⟩
  obtain ⟨c, hc, rfl⟩ := mem_keySet.mp (hsub hk)
  exact mem_keySet.mpr ⟨c, (List.mem_filter.mp hc).1, rfl⟩

end Phase1

/-! ## Phase 2 -/

section Phase2

variable {U : Unicode} {s : Settings} {index : ReconIndex} {cands : List BankCreditLine}

/-- A group of legs that phase 2 lifts: the only match of its settlement, its legs in no other match and in no
    pool that was too large, one of them strong. -/
structure LiftedGroup (U : Unicode) (pack : NarrationEvidencePack) (index : ReconIndex)
    (cands : List BankCreditLine) (sid : String) (K : Finset String) : Prop where
  isMatch : IsMatch index cands sid K
  sole : ∀ K', IsMatch index cands sid K' → K' = K
  exclusive : ∀ key ∈ K, ∀ sid' K', IsMatch index cands sid' K' → key ∈ K' → sid' = sid ∧ K' = K
  enumerable : ∀ key ∈ K, ¬ Poisoned index cands key
  strong : ∃ c ∈ cands, c.key ∈ K ∧
    hasSignal strongRzpSignals (razorpaySignals U pack index c) = true

theorem evidenceByKey_get? (hnd : (cands.map BankCreditLine.key).Nodup) {c : BankCreditLine}
    (h : c ∈ cands) :
    (evidenceByKey U s index cands).get? c.key = some (razorpaySignals U s.pack index c) := by
  unfold evidenceByKey
  rw [Dict.get?_gather_last]
  have hfilter : cands.filter (fun d => (some d.key : Option String) = some c.key) = [c] := by
    refine List.perm_singleton.mp ?_
    have hcands : cands.Nodup := hnd.of_map _
    rw [List.perm_ext_iff_of_nodup (hcands.filter _) (List.nodup_singleton c)]
    intro d
    simp only [List.mem_filter, List.mem_singleton, Option.some.injEq, decide_eq_true_eq]
    constructor
    · intro hd
      exact line_ext hnd hd.1 h hd.2
    · intro hd
      rw [hd]
      exact ⟨h, rfl⟩
  rw [hfilter]
  rfl

theorem assignable_iff (hnd : (cands.map BankCreditLine.key).Nodup) {m : SplitMatch}
    (hm : m ∈ (collectMatches cands (splitSettlements index)).1) :
    assignable (evidenceByKey U s index cands) (collectMatches cands (splitSettlements index)).1
        (collectMatches cands (splitSettlements index)).2 m = true ↔
      LiftedGroup U s.pack index cands m.1 (keySet m.2) := by
  have hpairs := nodup_collectMatches hnd (nodup_splitSettlements index)
  have hfound : (collectMatches cands (splitSettlements index)).1.Nodup := hpairs.of_map _
  have hinj : ∀ m' ∈ (collectMatches cands (splitSettlements index)).1, m'.1 = m.1 →
      keySet m'.2 = keySet m.2 → m' = m := by
    intro m' hm' h1 h2
    exact List.inj_on_of_nodup_map hpairs hm' hm (by simp only [h1, h2])
  have hlegs : ∀ m' ∈ (collectMatches cands (splitSettlements index)).1,
      m'.2.Sublist cands := by
    intro m' hm'
    obtain ⟨net, date, _, _, _, hsub⟩ := (mem_collectMatches _).mp hm'
    exact (mem_allSumSubsets hsub).1.trans List.filter_sublist
  -- the two counts, as statements about matches
  have hsole : ((collectMatches cands (splitSettlements index)).1.map Prod.fst).count m.1 = 1 ↔
      ∀ K', IsMatch index cands m.1 K' → K' = keySet m.2 := by
    rw [count_map_eq_one hfound Prod.fst hm]
    constructor
    · intro h K' hK'
      obtain ⟨m', hm', h1, rfl⟩ := (exists_found_iff hnd).mpr hK'
      rw [h m' hm' h1]
    · intro h m' hm' h1
      exact hinj m' hm' h1 (h _ ((exists_found_iff hnd).mp ⟨m', hm', h1, rfl⟩))
  have hexclusive : ∀ c ∈ m.2,
      ((((collectMatches cands (splitSettlements index)).1.flatMap Prod.snd).map
        BankCreditLine.key).count c.key = 1 ↔
      ∀ sid' K', IsMatch index cands sid' K' → c.key ∈ K' → sid' = m.1 ∧ K' = keySet m.2) := by
    intro c hc
    rw [List.map_flatMap, count_flatMap_eq_one hfound _
      (fun m' hm' => hnd.sublist ((hlegs m' hm').map _)) hm (List.mem_map_of_mem hc)]
    constructor
    · intro h sid' K' hK' hkey
      obtain ⟨m', hm', rfl, rfl⟩ := (exists_found_iff hnd).mpr hK'
      rw [h m' hm' (List.mem_map.mpr ((mem_keySet).mp hkey))]
      exact ⟨rfl, rfl⟩
    · intro h m' hm' hkey
      obtain ⟨h1, h2⟩ := h m'.1 (keySet m'.2) ((exists_found_iff hnd).mp ⟨m', hm', rfl, rfl⟩)
        (mem_keySet.mpr (List.mem_map.mp hkey))
      exact hinj m' hm' h1 h2
  have hstrong : m.2.any (strongLeg (evidenceByKey U s index cands)) = true ↔
      ∃ c ∈ cands, c.key ∈ keySet m.2 ∧
        hasSignal strongRzpSignals (razorpaySignals U s.pack index c) = true := by
    rw [List.any_eq_true]
    constructor
    · intro h
      obtain ⟨c, hc, hsig⟩ := h
      have hcand := (hlegs m hm).subset hc
      unfold strongLeg at hsig
      rw [evidenceByKey_get? hnd hcand, Option.getD_some] at hsig
      exact ⟨c, hcand, mem_keySet.mpr ⟨c, hc, rfl⟩, hsig⟩
    · intro h
      obtain ⟨c, hcand, hkey, hsig⟩ := h
      obtain ⟨d, hd, hdkey⟩ := mem_keySet.mp hkey
      have hcd : d = c := line_ext hnd ((hlegs m hm).subset hd) hcand hdkey
      refine ⟨c, hcd ▸ hd, ?_⟩
      unfold strongLeg
      rw [evidenceByKey_get? hnd hcand, Option.getD_some]
      exact hsig
  unfold assignable
  rw [Bool.and_eq_true, Bool.and_eq_true, decide_eq_true_eq, hsole, hstrong, List.all_eq_true]
  constructor
  · intro h
    obtain ⟨⟨hs, hall⟩, hst⟩ := h
    have hleg : ∀ c ∈ m.2, _ ∧ _ := fun c hc => by
      have := hall c hc
      rw [Bool.and_eq_true, decide_eq_true_eq, decide_eq_true_eq] at this
      exact this
    refine ⟨(exists_found_iff hnd).mp ⟨m, hm, rfl, rfl⟩, hs, ?_, ?_, hst⟩
    · intro key hkey
      obtain ⟨c, hc, rfl⟩ := mem_keySet.mp hkey
      exact (hexclusive c hc).mp (hleg c hc).1
    · intro key hkey
      obtain ⟨c, hc, rfl⟩ := mem_keySet.mp hkey
      exact fun hp => (hleg c hc).2 (poisoned_iff.mpr hp)
  · intro h
    refine ⟨⟨h.sole, fun c hc => ?_⟩, h.strong⟩
    have hkey : c.key ∈ keySet m.2 := mem_keySet.mpr ⟨c, hc, rfl⟩
    rw [Bool.and_eq_true, decide_eq_true_eq, decide_eq_true_eq]
    exact ⟨(hexclusive c hc).mpr (h.exclusive c.key hkey),
      fun hp => h.enumerable c.key hkey (poisoned_iff.mp hp)⟩

/-- A key is a leg of one lifted group at most. -/
theorem LiftedGroup.unique {pack : NarrationEvidencePack} {sid sid' : String} {K K' : Finset String}
    {key : String} (h : LiftedGroup U pack index cands sid K)
    (h' : LiftedGroup U pack index cands sid' K') (hk : key ∈ K) (hk' : key ∈ K') :
    sid' = sid ∧ K' = K := h.exclusive key hk sid' K' h'.isMatch hk'

/-- What is assigned to a leg of the group. -/
def legOf (index : ReconIndex) (cands : List BankCreditLine) (sid : String) (K : Finset String) :
    String × Nat × ℤ :=
  (sid, K.card, ∑ key ∈ K, amountOfKey cands key - (index.settlementNet.get? sid).getD 0)

/-- **Phase 2** lifts the legs of the lifted groups, each with its own group. -/
theorem assignedLegs_get? (hnd : (cands.map BankCreditLine.key).Nodup) {key : String}
    {v : String × Nat × ℤ} :
    (assignedLegs U s index cands).get? key = some v ↔
      ∃ sid K, LiftedGroup U s.pack index cands sid K ∧ key ∈ K ∧ v = legOf index cands sid K := by
  by_cases hsmall : cands.length < 2
  · unfold assignedLegs
    rw [if_pos hsmall, Dict.get?_empty]
    constructor
    · intro h
      exact absurd h (by simp)
    · intro h
      obtain ⟨sid, K, hgroup, _, _⟩ := h
      obtain ⟨hsub, hlo, _⟩ := hgroup.isMatch.legs
      have hcard := Finset.card_le_card hsub
      have hkeys : (keySet cands).card = cands.length := by
        unfold keySet
        rw [List.toFinset_card_of_nodup hnd, List.length_map]
      omega
  have hof : ∀ v', (assignedLegs U s index cands).get? key = some v' →
      ∃ sid K, LiftedGroup U s.pack index cands sid K ∧ key ∈ K ∧ v' = legOf index cands sid K := by
    intro v' hget
    unfold assignedLegs assignLegs at hget
    rw [if_neg hsmall, Dict.get?_gather_last] at hget
    obtain ⟨⟨m, c⟩, hlast, hv⟩ := Option.map_eq_some_iff.mp hget
    obtain ⟨hpair, hkey⟩ := List.mem_filter.mp (List.mem_of_getLast? hlast)
    obtain ⟨m', hm', hmem⟩ := List.mem_flatMap.mp hpair
    obtain ⟨c', hc', heq⟩ := List.mem_map.mp hmem
    obtain ⟨rfl, rfl⟩ := Prod.mk.inj heq
    obtain ⟨hfound, hassignable⟩ := List.mem_filter.mp hm'
    have hkey' : c'.key = key := by simpa using hkey
    obtain ⟨net, date, _, _, _, hsub⟩ := (mem_collectMatches _).mp hfound
    have hlist := (mem_allSumSubsets hsub).1.trans List.filter_sublist
    refine ⟨m'.1, keySet m'.2, (assignable_iff hnd hfound).mp hassignable,
      mem_keySet.mpr ⟨c', hc', hkey'⟩, ?_⟩
    have hsum : ∑ k ∈ keySet m'.2, amountOfKey cands k = (m'.2.map BankCreditLine.amountPaise).sum :=
      sum_identities hnd (fun d hd => amountOfKey_mem hnd hd) hlist
    have hcard : (keySet m'.2).card = m'.2.length := card_identities hnd hlist
    rw [← hv]
    unfold legOf
    rw [hsum, hcard]
  constructor
  · exact hof v
  · intro h
    obtain ⟨sid, K, hgroup, hk, hv⟩ := h
    have hkeys : key ∈ (assignedLegs U s index cands).keys := by
      unfold assignedLegs assignLegs
      rw [if_neg hsmall, Dict.mem_keys_gather]
      obtain ⟨m, hm, rfl, rfl⟩ := (exists_found_iff hnd).mpr hgroup.isMatch
      obtain ⟨c, hc, rfl⟩ := mem_keySet.mp hk
      refine ⟨(m, c), List.mem_flatMap.mpr ⟨m, ?_, List.mem_map_of_mem hc⟩, rfl⟩
      exact List.mem_filter.mpr ⟨hm, (assignable_iff hnd hm).mpr hgroup⟩
    obtain ⟨v', hv'⟩ := Dict.exists_get?_of_mem_keys hkeys
    obtain ⟨sid', K', hgroup', hk', hval⟩ := hof v' hv'
    obtain ⟨rfl, rfl⟩ := hgroup.unique hgroup' hk hk'
    rw [hv', hval, hv]

end Phase2

def IsRazorpay (a : RailAttribution) : Prop :=
  a.rail = Rail.razorpaySettlement.value ∧ a.abstained = false

def IsUnknown (a : RailAttribution) : Prop := a.rail = Rail.unknown.value ∧ a.abstained = true

theorem Accepted.isRazorpay {a : RailAttribution} {line : BankCreditLine} {evidence : List EvidenceItem}
    {score : ℚ} {tier : Tier} (h : Accepted a line evidence score tier) : IsRazorpay a :=
  ⟨h.rail, h.open_⟩

theorem Abstained.isUnknown {a : RailAttribution} {line : BankCreditLine} (h : Abstained a line) :
    IsUnknown a := ⟨h.rail, h.closed⟩

/-! ## A split leg before the challenger -/

/-- Without its reconstruction a leg has no score left: the proof margin is the whole confidence. -/
theorem survives_splitItem {t : ℚ} (sid : String) (legs : Nat) (residual : ℤ)
    {nonRzp : Dict Rail (List EvidenceItem)} (hnone : nonRzp.items = []) :
    Survives t [splitItem sid legs residual] nonRzp splitConfidence ↔ t ≤ splitConfidence := by
  have hraw : (rawChallenges [splitItem sid legs residual] nonRzp combine).map
      CompetingExplanation.score = [0, 0] := by
    unfold rawChallenges
    rw [hnone]
    rfl
  have hperm := ((List.perm_insertionSort (fun c c' => CompetingExplanation.sortKey c ≤ c'.sortKey)
    (rawChallenges [splitItem sid legs residual] nonRzp combine)).map CompetingExplanation.score)
  rw [hraw] at hperm
  have hsorted := List.perm_replicate.mp (show List.Perm _ (List.replicate 2 (0 : ℚ)) from hperm)
  have hlength : ((rawChallenges [splitItem sid legs residual] nonRzp combine).insertionSort
      fun c c' => c.sortKey ≤ c'.sortKey).length = 2 := by
    rw [← List.length_map CompetingExplanation.score, hsorted, List.length_replicate]
  have hkept : ¬ maxChallenges < ((rawChallenges [splitItem sid legs residual] nonRzp combine).insertionSort
      fun c c' => c.sortKey ≤ c'.sortKey).length := by
    rw [hlength]
    decide
  have hchallenge : (challenge [splitItem sid legs residual] nonRzp splitConfidence).truncated = false ∧
      (challenge [splitItem sid legs residual] nonRzp splitConfidence).proofMargin = splitConfidence := by
    unfold challenge challengeRazorpay
    dsimp only
    rw [decide_eq_false hkept, if_neg (by simp), hsorted]
    exact ⟨rfl, sub_zero _⟩
  unfold Survives
  rw [hchallenge.1, hchallenge.2]
  constructor
  · intro h
    rcases h with h | h
    · exact h.trans (by decide +kernel)
    · exact h.2
  · exact fun h => Or.inr ⟨rfl, h⟩

/-! ## Lifted lines -/

section Lifted

variable {U : Unicode} {s : Settings} {index : ReconIndex} {lines : List BankCreditLine}

/-- A line that abstains is UNKNOWN. -/
theorem lineVerdict_isUnknown {line : BankCreditLine}
    (h : (lineVerdict U s index line).abstained = true) : IsUnknown (lineVerdict U s index line) := by
  unfold lineVerdict at h ⊢
  cases hd : lineDecision U s.threshold s.pack index line with
  | settled a =>
      rw [hd] at h
      rcases lineDecision_settled hd with habs | hother
      · exact habs.isUnknown
      · have hopen := hother.1.open_
        rw [show a.abstained = true from h] at hopen
        exact absurd hopen (by simp)
  | candidate evidence score tier =>
      rw [hd] at h
      by_cases hsurvives : Survives s.marginThreshold evidence (narrationRailSignals U s.pack line) score
      · have hopen := (finalize_accepted line tier hsurvives).open_
        rw [show (finalizeRazorpay s line evidence _ score tier).abstained = true from h] at hopen
        exact absurd hopen (by simp)
      · exact (finalize_demoted line tier hsurvives).1.isUnknown

/-- Apart from its abstention, the line may be a leg. -/
structure CouldBeLeg (U : Unicode) (pack : NarrationEvidencePack) (index : ReconIndex)
    (line : BankCreditLine) : Prop where
  isCredit : line.isCredit = true
  positive : 0 < line.amountPaise
  noCompetitor : (narrationRailSignals U pack line).items = []
  leaning : hasSignal rzpLeaningSignals (razorpaySignals U pack index line) = true

theorem isSplitCandidate_iff {line : BankCreditLine} {a : RailAttribution} :
    isSplitCandidate U s index line a = true ↔
      a.abstained = true ∧ CouldBeLeg U s.pack index line := by
  unfold isSplitCandidate
  rw [Bool.and_eq_true, Bool.and_eq_true, Bool.and_eq_true, Bool.and_eq_true, decide_eq_true_eq,
    decide_eq_true_eq]
  constructor
  · intro h
    obtain ⟨⟨⟨⟨habs, hcredit⟩, hpos⟩, hnone⟩, hlean⟩ := h
    exact ⟨habs, hcredit, hpos, hnone, hlean⟩
  · intro h
    obtain ⟨habs, hcould⟩ := h
    exact ⟨⟨⟨⟨habs, hcould.isCredit⟩, hcould.positive⟩, hcould.noCompetitor⟩, hcould.leaning⟩

theorem mem_splitCandidates {line : BankCreditLine} :
    line ∈ splitCandidates U s index lines ↔
      line ∈ lines ∧ (lineVerdict U s index line).abstained = true ∧
        CouldBeLeg U s.pack index line := by
  unfold splitCandidates
  rw [List.mem_filter, isSplitCandidate_iff]

theorem nodup_splitCandidates (hnd : (lines.map BankCreditLine.key).Nodup) :
    ((splitCandidates U s index lines).map BankCreditLine.key).Nodup :=
  hnd.sublist (List.filter_sublist.map _)

/-- The line is a leg of a lifted group, and the reconstruction is not switched off. -/
def IsLifted (U : Unicode) (s : Settings) (index : ReconIndex) (lines : List BankCreditLine)
    (line : BankCreditLine) : Prop :=
  s.threshold ≤ splitConfidence ∧
    ∃ sid K, LiftedGroup U s.pack index (splitCandidates U s index lines) sid K ∧ line.key ∈ K

theorem LiftedGroup.mem (hnd : (lines.map BankCreditLine.key).Nodup) {pack : NarrationEvidencePack}
    {sid : String} {K : Finset String}
    (h : LiftedGroup U pack index (splitCandidates U s index lines) sid K) {line : BankCreditLine}
    (hline : line ∈ lines) (hkey : line.key ∈ K) : line ∈ splitCandidates U s index lines := by
  obtain ⟨c, hc, hckey⟩ := mem_keySet.mp (h.isMatch.legs.1 hkey)
  rwa [← line_ext hnd (mem_splitCandidates.mp hc).1 hline hckey]

theorem IsLifted.mem (hnd : (lines.map BankCreditLine.key).Nodup) {line : BankCreditLine}
    (h : IsLifted U s index lines line) (hline : line ∈ lines) :
    line ∈ splitCandidates U s index lines := by
  obtain ⟨_, sid, K, hgroup, hkey⟩ := h
  exact hgroup.mem hnd hline hkey

theorem verdictOf_of_not_lifted (hnd : (lines.map BankCreditLine.key).Nodup) {line : BankCreditLine}
    (h : ¬ IsLifted U s index lines line) :
    verdictOf U s index lines line = lineVerdict U s index line := by
  rcases verdictOf_cases U s index lines line with hown | ⟨hon, sid, legs, residual, hget, _⟩
  · exact hown
  · obtain ⟨sid', K, hgroup, hkey, _⟩ := (assignedLegs_get? (nodup_splitCandidates hnd)).mp hget
    exact absurd ⟨hon, sid', K, hgroup, hkey⟩ h

/-- **The verdict of a lifted line**: its group, put to the challenger. -/
theorem verdictOf_of_lifted (hnd : (lines.map BankCreditLine.key).Nodup) {line : BankCreditLine}
    {sid : String} {K : Finset String} (hon : s.threshold ≤ splitConfidence)
    (hgroup : LiftedGroup U s.pack index (splitCandidates U s index lines) sid K)
    (hkey : line.key ∈ K) :
    verdictOf U s index lines line = finalizeRazorpay s line
      [splitItem sid K.card (legOf index (splitCandidates U s index lines) sid K).2.2]
      (narrationRailSignals U s.pack line) splitConfidence .c := by
  have hget := (assignedLegs_get? (s := s) (nodup_splitCandidates hnd)).mpr ⟨sid, K, hgroup, hkey, rfl⟩
  unfold verdictOf liftLeg
  rw [if_neg (not_lt.mpr hon), hget]
  rfl

/-- A lifted line is Razorpay when its confidence covers the margin, -/
theorem IsLifted.isRazorpay (hnd : (lines.map BankCreditLine.key).Nodup) {line : BankCreditLine}
    (h : IsLifted U s index lines line) (hline : line ∈ lines)
    (hmargin : s.marginThreshold ≤ splitConfidence) :
    IsRazorpay (verdictOf U s index lines line) := by
  have hnone := (mem_splitCandidates.mp (h.mem hnd hline)).2.2.noCompetitor
  obtain ⟨hon, sid, K, hgroup, hkey⟩ := h
  rw [verdictOf_of_lifted hnd hon hgroup hkey]
  exact (finalize_accepted _ _ ((survives_splitItem _ _ _ hnone).mpr hmargin)).isRazorpay

/-- and UNKNOWN otherwise. -/
theorem IsLifted.isUnknown (hnd : (lines.map BankCreditLine.key).Nodup) {line : BankCreditLine}
    (h : IsLifted U s index lines line) (hline : line ∈ lines)
    (hmargin : splitConfidence < s.marginThreshold) :
    IsUnknown (verdictOf U s index lines line) := by
  have hnone := (mem_splitCandidates.mp (h.mem hnd hline)).2.2.noCompetitor
  obtain ⟨hon, sid, K, hgroup, hkey⟩ := h
  rw [verdictOf_of_lifted hnd hon hgroup hkey]
  refine (finalize_demoted _ _ fun hsurvives => ?_).1.isUnknown
  exact absurd ((survives_splitItem _ _ _ hnone).mp hsurvives) (not_le.mpr hmargin)

end Lifted

end Untangle
