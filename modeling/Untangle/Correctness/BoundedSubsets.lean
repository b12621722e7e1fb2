import Mathlib.Data.Finset.Max
import Mathlib.Data.Nat.Choose.Bounds
import Mathlib.Tactic.IntervalCases
import Mathlib.Tactic.Linarith
import Untangle.Engine.BoundedSubsets

/-!
# `Correctness.BoundedSubsets` — what the two subset searches find

The purpose of both searches is order-free: the sets of identities whose amounts sum to the target
(`sumSets`). This module says exactly how far each search meets it.

* The exhaustive search finds precisely those sets (`findBoundedSubsets_spec`).
* The amount-indexed search finds precisely the two- and three-element ones **and, in addition, the sets of
  its doubled tuples** (`legacySets_eq`): the third loop of `find_legacy_subsets` only asks that
  `third > second`, so `third` may be `first` again. A tuple `(x, y, x)` is reported when `x` stands before
  `y` in the item list, `y < x` as strings and `2·amount x + amount y` is the target (`DoubledPair`).

`setsumSearch_spec` packages both for the callers.
-/

namespace Untangle

open Lib

/-! ## Well-formed pools -/

/-- The items both callers pass: distinct identities, amounts strictly between zero and the target. -/
structure ValidPool (cands : List Item) (target : ℤ) : Prop where
  nodup : (cands.map Prod.fst).Nodup
  pos : ∀ item ∈ cands, 0 < item.2
  lt : ∀ item ∈ cands, item.2 < target

/-- What both searches demand of their items: distinct identities and positive amounts. -/
structure ItemPool (cands : List Item) : Prop where
  nodup : (cands.map Prod.fst).Nodup
  pos : ∀ item ∈ cands, 0 < item.2

theorem ValidPool.items {cands : List Item} {target : ℤ} (hv : ValidPool cands target) : ItemPool cands :=
  ⟨hv.nodup, hv.pos⟩

/-- The identities of a pool. -/
def poolIds (cands : List Item) : Finset String := identities Prod.fst cands

/-- The amount of an identity (zero for an identity outside the pool). -/
def amountOf (cands : List Item) (id : String) : ℤ := (cands.lookup id).getD 0

theorem amountOf_mem {cands : List Item} (hnd : (cands.map Prod.fst).Nodup) {item : Item}
    (h : item ∈ cands) : amountOf cands item.1 = item.2 := by
  unfold amountOf
  rw [(Dict.lookup_eq_some_iff hnd).mpr h]
  rfl

theorem item_ext {cands : List Item} (hnd : (cands.map Prod.fst).Nodup) {a b : Item}
    (ha : a ∈ cands) (hb : b ∈ cands) (h : a.1 = b.1) : a = b :=
  List.inj_on_of_nodup_map hnd ha hb h

theorem ItemPool.perm {cands cands' : List Item} (hp : ItemPool cands) (hperm : cands.Perm cands') :
    ItemPool cands' where
  nodup := (hperm.map _).nodup_iff.mp hp.nodup
  pos item hitem := hp.pos item (hperm.mem_iff.mpr hitem)

/-- The question does not depend on the order of the items. -/
theorem sumSets_perm {cands cands' : List Item} (hp : ItemPool cands) (hperm : cands.Perm cands')
    (lo hi : Nat) {target : ℤ} :
    sumSets (poolIds cands) (amountOf cands) lo hi target 0
      = sumSets (poolIds cands') (amountOf cands') lo hi target 0 := by
  have hids : poolIds cands = poolIds cands' := identities_perm hperm
  rw [← hids]
  refine sumSets_congr fun id hid => ?_
  obtain ⟨item, hitem, rfl⟩ := mem_identities.mp hid
  rw [amountOf_mem hp.nodup hitem, amountOf_mem (hp.perm hperm).nodup (hperm.mem_iff.mp hitem)]

/-- The sets of two or three settlements that sum to the amount. -/
def genuineSets (cands : List Item) (target : ℤ) : Finset (Finset String) :=
  sumSets (poolIds cands) (amountOf cands) 2 3 target 0

theorem genuineSets_perm {cands cands' : List Item} {target : ℤ} (hp : ItemPool cands)
    (hperm : cands.Perm cands') : genuineSets cands target = genuineSets cands' target :=
  sumSets_perm hp hperm 2 3

theorem checkItems_ok {cands : List Item} (hnd : (cands.map Prod.fst).Nodup)
    (hpos : ∀ item ∈ cands, 0 < item.2) : checkItems cands = .ok () := by
  unfold checkItems
  rw [if_neg (by simpa using hnd), if_neg]
  intro h
  obtain ⟨item, hmem, hle⟩ := h
  have := hpos item hmem
  omega

/-! ## The exhaustive search -/

/-- The loop returns the first `max_results` matches, unless there are more combinations than the budget. -/
theorem examine_cases (b : SubsetBounds) (target : ℤ) (combos : List (List Item)) :
    ∀ (found : List (List String)) (examined : Nat), found.length < b.maxResults →
      examine b target combos found examined =
          ⟨(found ++ (combos.filter fun c => comboMatches b target c).map (·.map Prod.fst)).take
            b.maxResults, false⟩ ∨
        (examine b target combos found examined = ⟨[], true⟩ ∧
          b.maxCombinations < examined + combos.length) := by
  induction combos with
  | nil =>
      intro found examined hf
      simp [examine, List.take_of_length_le (Nat.le_of_lt hf)]
  | cons combo rest ih =>
      intro found examined hf
      unfold examine
      rw [List.length_cons]
      by_cases hexam : b.maxCombinations < examined + 1
      · rw [if_pos hexam]
        exact Or.inr ⟨rfl, by omega⟩
      rw [if_neg hexam]
      by_cases hm : comboMatches b target combo
      · rw [if_neg (not_not.mpr hm), List.filter_cons, if_pos (decide_eq_true hm), List.map_cons]
        by_cases hfull : b.maxResults ≤ (found ++ [combo.map Prod.fst]).length
        · have hlen : (found ++ [combo.map Prod.fst]).length = b.maxResults := by
            simp only [List.length_append, List.length_singleton] at hfull ⊢
            omega
          have htake : ∀ ys, (found ++ combo.map Prod.fst :: ys).take b.maxResults
              = found ++ [combo.map Prod.fst] := by
            intro ys
            rw [List.append_cons, List.take_left' hlen]
          rw [if_pos hfull, htake]
          exact Or.inl rfl
        · have hrest := ih (found ++ [combo.map Prod.fst]) (examined + 1) (Nat.lt_of_not_le hfull)
          rw [List.append_assoc, List.singleton_append] at hrest
          rw [if_neg hfull]
          exact hrest.imp_right fun h => ⟨h.1, by omega⟩
      · rw [if_pos hm, List.filter_cons, if_neg (by simpa using hm)]
        exact (ih found (examined + 1) hf).imp_right fun h => ⟨h.1, by omega⟩

/-- While the budget lasts, the loop returns the first `max_results` matches. -/
theorem examine_eq (b : SubsetBounds) (target : ℤ) (combos : List (List Item))
    (found : List (List String)) (examined : Nat) (hf : found.length < b.maxResults)
    (hbudget : examined + combos.length ≤ b.maxCombinations) :
    examine b target combos found examined =
      ⟨(found ++ (combos.filter fun c => comboMatches b target c).map (·.map Prod.fst)).take
          b.maxResults, false⟩ :=
  (examine_cases b target combos found examined hf).resolve_right fun h => by omega

/-- The identity sets of the matching combinations, in examination order. -/
def boundedMatches (b : SubsetBounds) (cands : List Item) (target : ℤ) : List (List Item) :=
  (combinationsInRange b cands).filter fun c => comboMatches b target c

theorem mem_combinationsInRange {b : SubsetBounds} {cands c : List Item} :
    c ∈ combinationsInRange b cands ↔
      c.Sublist cands ∧ b.minTerms ≤ c.length ∧ c.length ≤ b.maxTerms := by
  unfold combinationsInRange
  simp only [List.mem_flatMap, List.mem_range', mem_combinations]
  constructor
  · intro h
    obtain ⟨k, ⟨i, hi, rfl⟩, hsub, hlen⟩ := h
    exact ⟨hsub, by omega, by omega⟩
  · intro h
    obtain ⟨hsub, hlo, hhi⟩ := h
    exact ⟨c.length, ⟨c.length - b.minTerms, by omega, by omega⟩, hsub, rfl⟩

theorem nodup_combinationsInRange {b : SubsetBounds} {cands : List Item} (h : cands.Nodup) :
    (combinationsInRange b cands).Nodup := by
  unfold combinationsInRange
  rw [List.nodup_flatMap]
  refine ⟨fun k _ => nodup_combinations h, ?_⟩
  refine List.Pairwise.imp ?_ (List.nodup_range' 1 Nat.one_pos)
  intro k k' hne c hc hc'
  exact hne ((mem_combinations.mp hc).2.symm.trans (mem_combinations.mp hc').2)

theorem toFinset_map_fst (c : List Item) : (c.map Prod.fst).toFinset = identities Prod.fst c := rfl

/-- **The matching combinations are, as identity sets, the sum sets**, each found once. -/
theorem boundedMatches_spec (b : SubsetBounds) {cands : List Item} (target : ℤ)
    (hnd : (cands.map Prod.fst).Nodup) :
    (((boundedMatches b cands target).map (·.map Prod.fst)).map List.toFinset).Nodup ∧
      (((boundedMatches b cands target).map (·.map Prod.fst)).map List.toFinset).toFinset
        = sumSets (poolIds cands) (amountOf cands) b.minTerms b.maxTerms target b.tolerance := by
  have hsum : ∀ c : List Item, c.Sublist cands →
      ∑ i ∈ identities Prod.fst c, amountOf cands i = (c.map Prod.snd).sum :=
    fun c hc => sum_identities hnd (fun a ha => amountOf_mem hnd ha) hc
  rw [List.map_map]
  refine ⟨?_, ?_⟩
  · refine List.Nodup.map_on ?_ ((nodup_combinationsInRange (hnd.of_map _)).filter _)
    intro c hc d hd h
    exact identities_injOn hnd (mem_combinationsInRange.mp (List.mem_filter.mp hc).1).1
      (mem_combinationsInRange.mp (List.mem_filter.mp hd).1).1 h
  · apply Finset.ext
    intro s
    rw [List.mem_toFinset, List.mem_map, mem_sumSets]
    constructor
    · intro h
      obtain ⟨c, hc, rfl⟩ := h
      obtain ⟨hrange, hmatch⟩ := List.mem_filter.mp hc
      obtain ⟨hsub, hlo, hhi⟩ := mem_combinationsInRange.mp hrange
      show identities Prod.fst c ⊆ _ ∧ _
      rw [Function.comp_apply, toFinset_map_fst, card_identities hnd hsub, hsum c hsub]
      exact ⟨identities_subset hsub, hlo, hhi, of_decide_eq_true hmatch⟩
    · intro h
      obtain ⟨hs, hlo, hhi, htol⟩ := h
      obtain ⟨c, hsub, rfl⟩ := exists_sublist_of_subset hs
      rw [card_identities hnd hsub] at hlo hhi
      rw [hsum c hsub] at htol
      exact ⟨c, List.mem_filter.mpr ⟨mem_combinationsInRange.mpr ⟨hsub, hlo, hhi⟩,
        decide_eq_true htol⟩, rfl⟩

/-- **The exhaustive search**, unsorted and within its budgets, returns the first `max_results` of a list
    that enumerates the sum sets without repetition. -/
theorem findBoundedSubsets_spec {b : SubsetBounds} {cands : List Item} {target : ℤ}
    (hnd : (cands.map Prod.fst).Nodup) (hpos : ∀ item ∈ cands, 0 < item.2) (htarget : 0 < target)
    (htol : 0 ≤ b.tolerance) (hterms : b.minTerms ≤ b.maxTerms) (hsort : b.sortItems = false)
    (hitems : cands.length ≤ b.maxItems) (hmax : 1 ≤ b.maxItems) (hresults : 1 ≤ b.maxResults)
    (hcombos : 1 ≤ b.maxCombinations)
    (hbudget : (combinationsInRange b cands).length ≤ b.maxCombinations) :
    findBoundedSubsets cands target b =
      .ok ⟨((boundedMatches b cands target).map (·.map Prod.fst)).take b.maxResults, false⟩ := by
  have hbounds : ¬ (target ≤ 0 ∨ b.tolerance < 0 ∨ b.maxTerms < b.minTerms) := by omega
  have hbudgets : ¬ (b.maxItems < 1 ∨ b.maxCombinations < 1 ∨ b.maxResults < 1) := by omega
  unfold findBoundedSubsets
  rw [if_neg hbounds, if_neg hbudgets]
  simp only [hsort, Bool.false_eq_true, if_false, checkItems_ok hnd hpos,
    if_neg (Nat.not_lt.mpr hitems)]
  rw [examine_eq b target _ [] 0 hresults (by omega)]
  rfl

/-! ## The amount-indexed search -/

theorem idsOfValue_eq (ordered : List Item) (value : ℤ) :
    idsOfValue ordered value = (ordered.filter fun item => item.2 = value).map Prod.fst := by
  unfold idsOfValue valueToIds
  rw [Dict.getD_get?_gather_append]
  simp only [Option.some.injEq]

theorem mem_idsOfValue {ordered : List Item} {value : ℤ} {id : String} :
    id ∈ idsOfValue ordered value ↔ ∃ item ∈ ordered, item.2 = value ∧ item.1 = id := by
  rw [idsOfValue_eq]
  simp only [List.mem_map, List.mem_filter, decide_eq_true_eq, and_assoc]

theorem mem_pairTuples {ordered : List Item} {target : ℤ} {t : List String} :
    t ∈ pairTuples ordered target ↔
      ∃ a ∈ ordered, ∃ b ∈ ordered, a.2 + b.2 = target ∧ a.1 < b.1 ∧ t = [a.1, b.1] := by
  unfold pairTuples
  simp only [List.mem_flatMap, List.mem_map, List.mem_filter, mem_idsOfValue, decide_eq_true_eq,
    not_le]
  constructor
  · intro h
    obtain ⟨a, ha, _, ⟨⟨b, hb, hval, rfl⟩, hlt⟩, rfl⟩ := h
    exact ⟨a, ha, b, hb, by omega, hlt, rfl⟩
  · intro h
    obtain ⟨a, ha, b, hb, hval, hlt, rfl⟩ := h
    exact ⟨a, ha, b.1, ⟨⟨b, hb, by omega, rfl⟩, hlt⟩, rfl⟩

/-- What the three-term loop visits for one choice of `first` and `second`. -/
def rowTuples (ordered : List Item) (target : ℤ) (first second : Item) : List (List String) :=
  if target - first.2 - second.2 ≤ 0 then []
  else ((idsOfValue ordered (target - first.2 - second.2)).filter fun third => ¬ third ≤ second.1).map
    fun third => [first.1, second.1, third]

theorem tripleTuples_cons (ordered : List Item) (target : ℤ) (first : Item) (rest : List Item) :
    tripleTuples ordered target (first :: rest) =
      rest.flatMap (rowTuples ordered target first) ++ tripleTuples ordered target rest := rfl

theorem mem_rowTuples {ordered : List Item} {target : ℤ} {first second : Item} {t : List String} :
    t ∈ rowTuples ordered target first second ↔
      ∃ c ∈ ordered, 0 < c.2 ∧ first.2 + second.2 + c.2 = target ∧ second.1 < c.1 ∧
        t = [first.1, second.1, c.1] := by
  unfold rowTuples
  by_cases hrem : target - first.2 - second.2 ≤ 0
  · rw [if_pos hrem]
    refine ⟨fun h => absurd h List.not_mem_nil, fun h => ?_⟩
    obtain ⟨c, _, hpos, hsum, _⟩ := h
    omega
  · rw [if_neg hrem]
    simp only [List.mem_map, List.mem_filter, mem_idsOfValue, decide_eq_true_eq, not_le]
    constructor
    · intro h
      obtain ⟨_, ⟨⟨c, hc, hval, rfl⟩, hlt⟩, rfl⟩ := h
      exact ⟨c, hc, by omega, by omega, hlt, rfl⟩
    · intro h
      obtain ⟨c, hc, _, hsum, hlt, rfl⟩ := h
      exact ⟨c.1, ⟨⟨c, hc, by omega, rfl⟩, hlt⟩, rfl⟩

/-- The three-term loop: `first` before `second` in the item list, `third` anywhere. -/
theorem mem_tripleTuples {ordered : List Item} {target : ℤ} {t : List String} :
    ∀ {l : List Item}, t ∈ tripleTuples ordered target l ↔
      ∃ a b, [a, b].Sublist l ∧ ∃ c ∈ ordered, 0 < c.2 ∧ a.2 + b.2 + c.2 = target ∧
        b.1 < c.1 ∧ t = [a.1, b.1, c.1] := by
  intro l
  induction l with
  | nil => simp [tripleTuples]
  | cons first rest ih =>
      rw [tripleTuples_cons, List.mem_append, List.mem_flatMap, ih]
      simp only [mem_rowTuples]
      constructor
      · intro h
        rcases h with ⟨b, hb, hrest⟩ | ⟨a, b, hab, hrest⟩
        · exact ⟨first, b, (List.singleton_sublist.mpr hb).cons_cons first, hrest⟩
        · exact ⟨a, b, hab.cons first, hrest⟩
      · intro h
        obtain ⟨a, b, hab, hrest⟩ := h
        rcases List.sublist_cons_iff.mp hab with htail | ⟨r, hr, hsub⟩
        · exact Or.inr ⟨a, b, htail, hrest⟩
        · obtain ⟨rfl, rfl⟩ := List.cons.inj hr
          exact Or.inl ⟨b, List.singleton_sublist.mp hsub, hrest⟩

/-- `x` stands before `y` in the pool, `y < x` as strings, and `x` counted twice plus `y` gives the target:
    the three-term loop reports the tuple `(x, y, x)`. -/
def DoubledPair (cands : List Item) (target : ℤ) (x y : Item) : Prop :=
  [x, y].Sublist cands ∧ y.1 < x.1 ∧ 2 * x.2 + y.2 = target

instance (cands : List Item) (target : ℤ) (x y : Item) : Decidable (DoubledPair cands target x y) :=
  inferInstanceAs (Decidable (_ ∧ _ ∧ _))

/-- All tuples the search visits, in visiting order. -/
def legacyTuples (cands : List Item) (target : ℤ) : List (List String) :=
  pairTuples cands target ++ tripleTuples cands target cands

/-- A visited tuple is a duplicate-free sum of two or three pool amounts, or the doubled tuple of a
    `DoubledPair`. -/
theorem legacyTuples_cases {cands : List Item} {target : ℤ} (hp : ItemPool cands)
    {t : List String} (h : t ∈ legacyTuples cands target) :
    (t.Nodup ∧ t.toFinset ∈ sumSets (poolIds cands) (amountOf cands) 2 3 target 0) ∨
      ∃ x y, DoubledPair cands target x y ∧ t = [x.1, y.1, x.1] := by
  have hmem : ∀ a ∈ cands, a.1 ∈ poolIds cands := fun a ha => mem_identities.mpr ⟨a, ha, rfl⟩
  rcases List.mem_append.mp h with h | h
  · obtain ⟨a, ha, b, hb, hsum, hlt, rfl⟩ := mem_pairTuples.mp h
    have hne : a.1 ≠ b.1 := ne_of_lt hlt
    refine Or.inl ⟨by simpa using hne, ?_⟩
    rw [mem_sumSets]
    refine ⟨?_, ?_⟩
    · intro i hi
      simp only [List.toFinset_cons, List.toFinset_nil, Finset.mem_insert, insert_empty_eq,
        Finset.mem_singleton] at hi
      rcases hi with rfl | rfl
      · exact hmem a ha
      · exact hmem b hb
    · have hcard : ([a.1, b.1].toFinset).card = 2 := by
        rw [List.toFinset_card_of_nodup (by simpa using hne)]
        rfl
      rw [hcard, List.sum_toFinset _ (by simpa using hne)]
      simp [amountOf_mem hp.nodup ha, amountOf_mem hp.nodup hb, hsum]
  · obtain ⟨a, b, hab, c, hc, hpos, hsum, hlt, rfl⟩ := mem_tripleTuples.mp h
    have ha : a ∈ cands := hab.subset (by simp)
    have hb : b ∈ cands := hab.subset (by simp)
    have hab1 : a.1 ≠ b.1 := by
      have hnd : ([a, b].map Prod.fst).Nodup := (hab.map _).nodup hp.nodup
      simpa using hnd
    have hbc : b.1 ≠ c.1 := ne_of_lt hlt
    by_cases hac : a.1 = c.1
    · have hceq : c = a := item_ext hp.nodup hc ha hac.symm
      subst hceq
      exact Or.inr ⟨c, b, ⟨hab, hlt, by omega⟩, rfl⟩
    · have hnd : [a.1, b.1, c.1].Nodup := by simp [hab1, hbc, hac]
      refine Or.inl ⟨hnd, ?_⟩
      rw [mem_sumSets]
      refine ⟨?_, ?_⟩
      · intro i hi
        simp only [List.toFinset_cons, List.toFinset_nil, Finset.mem_insert, insert_empty_eq,
          Finset.mem_singleton] at hi
        rcases hi with rfl | rfl | rfl
        · exact hmem a ha
        · exact hmem b hb
        · exact hmem c hc
      · rw [List.toFinset_card_of_nodup hnd, List.sum_toFinset _ hnd]
        simp [amountOf_mem hp.nodup ha, amountOf_mem hp.nodup hb, amountOf_mem hp.nodup hc,
          ← hsum, add_assoc]

/-- Of two different members of a list one stands before the other. -/
theorem pair_sublist_or {α : Type} {a b : α} (hne : a ≠ b) :
    ∀ {l : List α}, a ∈ l → b ∈ l → [a, b].Sublist l ∨ [b, a].Sublist l := by
  intro l
  induction l with
  | nil => intro ha _; exact absurd ha List.not_mem_nil
  | cons x l ih =>
      intro ha hb
      rcases List.mem_cons.mp ha with hax | ha'
      · rcases List.mem_cons.mp hb with hbx | hb'
        · exact absurd (hax.trans hbx.symm) hne
        · exact Or.inl (hax ▸ (List.singleton_sublist.mpr hb').cons_cons a)
      · rcases List.mem_cons.mp hb with hbx | hb'
        · exact Or.inr (hbx ▸ (List.singleton_sublist.mpr ha').cons_cons b)
        · exact (ih ha' hb').imp (fun h => h.cons x) (fun h => h.cons x)

theorem exists_lt_of_card_two {s : Finset String} (h : s.card = 2) :
    ∃ p q, p < q ∧ s = [p, q].toFinset := by
  obtain ⟨x, y, hxy, rfl⟩ := Finset.card_eq_two.mp h
  rcases lt_or_gt_of_ne hxy with hlt | hlt
  · exact ⟨x, y, hlt, by simp⟩
  · exact ⟨y, x, hlt, by simp [Finset.pair_comm]⟩

theorem exists_lt_of_card_three {s : Finset String} (h : s.card = 3) :
    ∃ p q r, p < q ∧ q < r ∧ s = [p, q, r].toFinset := by
  obtain ⟨p, hp, hmin⟩ := s.exists_min_image id (Finset.card_pos.mp (by omega))
  have herase : (s.erase p).card = 2 := by rw [Finset.card_erase_of_mem hp, h]
  obtain ⟨q, r, hqr, hs⟩ := exists_lt_of_card_two herase
  have hq : q ∈ s.erase p := by rw [hs]; simp
  obtain ⟨hqp, hqs⟩ := Finset.mem_erase.mp hq
  refine ⟨p, q, r, lt_of_le_of_ne (hmin q hqs) (Ne.symm hqp), hqr, ?_⟩
  rw [List.toFinset_cons, ← hs, Finset.insert_erase hp]

/-- **Completeness.** Every two- or three-element set of pool identities summing to the target is the set of
    some visited tuple. For three terms it is enough to compare the positions of the two smallest. -/
theorem exists_tuple_of_mem_sumSets {cands : List Item} {target : ℤ} (hp : ItemPool cands)
    {s : Finset String} (h : s ∈ sumSets (poolIds cands) (amountOf cands) 2 3 target 0) :
    ∃ t ∈ legacyTuples cands target, t.toFinset = s := by
  obtain ⟨hs, hlo, hhi, htol⟩ := mem_sumSets.mp h
  have hitem : ∀ i ∈ s, ∃ a ∈ cands, a.1 = i := fun i hi => mem_identities.mp (hs hi)
  have hsum : ∑ i ∈ s, amountOf cands i = target := by
    have := abs_nonpos_iff.mp htol
    omega
  have hcard : s.card = 2 ∨ s.card = 3 := by omega
  rcases hcard with hcard | hcard
  · obtain ⟨p, q, hpq, rfl⟩ := exists_lt_of_card_two hcard
    obtain ⟨a, ha, rfl⟩ := hitem p (by simp)
    obtain ⟨b, hb, rfl⟩ := hitem q (by simp)
    rw [List.sum_toFinset _ (by simpa using ne_of_lt hpq)] at hsum
    simp only [List.map_cons, List.map_nil, List.sum_cons, List.sum_nil, add_zero,
      amountOf_mem hp.nodup ha, amountOf_mem hp.nodup hb] at hsum
    exact ⟨[a.1, b.1], List.mem_append_left _ (mem_pairTuples.mpr ⟨a, ha, b, hb, hsum, hpq, rfl⟩),
      rfl⟩
  · obtain ⟨p, q, r, hpq, hqr, rfl⟩ := exists_lt_of_card_three hcard
    obtain ⟨a, ha, rfl⟩ := hitem p (by simp)
    obtain ⟨b, hb, rfl⟩ := hitem q (by simp)
    obtain ⟨c, hc, rfl⟩ := hitem r (by simp)
    have hpr : a.1 < c.1 := lt_trans hpq hqr
    have hnd : [a.1, b.1, c.1].Nodup := by
      simp [ne_of_lt hpq, ne_of_lt hqr, ne_of_lt hpr]
    rw [List.sum_toFinset _ hnd] at hsum
    simp only [List.map_cons, List.map_nil, List.sum_cons, List.sum_nil, add_zero,
      amountOf_mem hp.nodup ha, amountOf_mem hp.nodup hb, amountOf_mem hp.nodup hc] at hsum
    have hab : a ≠ b := fun e => ne_of_lt hpq (congrArg Prod.fst e)
    rcases pair_sublist_or hab ha hb with hsub | hsub
    · refine ⟨[a.1, b.1, c.1], List.mem_append_right _ (mem_tripleTuples.mpr
        ⟨a, b, hsub, c, hc, hp.pos c hc, by omega, hqr, rfl⟩), rfl⟩
    · refine ⟨[b.1, a.1, c.1], List.mem_append_right _ (mem_tripleTuples.mpr
        ⟨b, a, hsub, c, hc, hp.pos c hc, by omega, hpr, rfl⟩), ?_⟩
      simp [Finset.insert_comm]

/-- The identity sets the amount-indexed search reports. -/
def legacySets (cands : List Item) (target : ℤ) : Finset (Finset String) :=
  ((legacyTuples cands target).map List.toFinset).toFinset

/-- **The reported sets** are the two- and three-element sum sets and the sets of the doubled pairs. -/
theorem mem_legacySets {cands : List Item} {target : ℤ} (hp : ItemPool cands)
    {s : Finset String} :
    s ∈ legacySets cands target ↔
      s ∈ sumSets (poolIds cands) (amountOf cands) 2 3 target 0 ∨
        ∃ x y, DoubledPair cands target x y ∧ s = {x.1, y.1} := by
  unfold legacySets
  rw [List.mem_toFinset, List.mem_map]
  refine ⟨fun h => ?_, fun h => ?_⟩
  · obtain ⟨t, ht, rfl⟩ := h
    rcases legacyTuples_cases hp ht with ⟨_, hsum⟩ | ⟨x, y, hxy, rfl⟩
    · exact Or.inl hsum
    · exact Or.inr ⟨x, y, hxy, by simp [Finset.pair_comm]⟩
  · rcases h with h | ⟨x, y, ⟨hsub, hlt, hsum⟩, rfl⟩
    · exact exists_tuple_of_mem_sumSets hp h
    · have hx : x ∈ cands := hsub.subset (by simp)
      refine ⟨[x.1, y.1, x.1], List.mem_append_right _ (mem_tripleTuples.mpr
        ⟨x, y, hsub, x, hx, hp.pos x hx, by omega, hlt, rfl⟩), ?_⟩
      simp [Finset.pair_comm]

/-- The two identities of a doubled pair do not themselves sum to the target. -/
theorem doubledPair_not_sum {cands : List Item} {target : ℤ} (hp : ItemPool cands) {x y : Item}
    (h : DoubledPair cands target x y) :
    ({x.1, y.1} : Finset String) ∉ sumSets (poolIds cands) (amountOf cands) 2 3 target 0 := by
  obtain ⟨hsub, hlt, hsum⟩ := h
  have hx : x ∈ cands := hsub.subset (by simp)
  have hy : y ∈ cands := hsub.subset (by simp)
  intro hmem
  obtain ⟨_, _, _, htol⟩ := mem_sumSets.mp hmem
  rw [Finset.sum_pair (ne_of_gt hlt), amountOf_mem hp.nodup hx, amountOf_mem hp.nodup hy] at htol
  have hzero := abs_nonpos_iff.mp htol
  have hpos := hp.pos x hx
  omega

/-- A doubled pair is determined by its identities. -/
theorem doubledPair_ext {cands : List Item} {target : ℤ} (hp : ItemPool cands) {x y x' y' : Item}
    (h : DoubledPair cands target x y) (h' : DoubledPair cands target x' y')
    (hset : ({x'.1, y'.1} : Finset String) = {x.1, y.1}) : x' = x ∧ y' = y := by
  have hx' : x'.1 = x.1 ∨ x'.1 = y.1 := by
    have hmem : x'.1 ∈ ({x.1, y.1} : Finset String) := by rw [← hset]; simp
    simpa using hmem
  have hy' : y'.1 = x.1 ∨ y'.1 = y.1 := by
    have hmem : y'.1 ∈ ({x.1, y.1} : Finset String) := by rw [← hset]; simp
    simpa using hmem
  have hlt := h.2.1
  have hlt' := h'.2.1
  have hids : x'.1 = x.1 ∧ y'.1 = y.1 := by
    rcases hx' with hx' | hx'
    · rcases hy' with hy' | hy'
      · rw [hx', hy'] at hlt'
        exact absurd hlt' (lt_irrefl _)
      · exact ⟨hx', hy'⟩
    · rcases hy' with hy' | hy'
      · rw [hx', hy'] at hlt'
        exact absurd hlt (lt_asymm hlt')
      · rw [hx', hy'] at hlt'
        exact absurd hlt' (lt_irrefl _)
  exact ⟨item_ext hp.nodup (h'.1.subset (by simp)) (h.1.subset (by simp)) hids.1,
    item_ext hp.nodup (h'.1.subset (by simp)) (h.1.subset (by simp)) hids.2⟩

/-- **The amount-indexed search** returns the first `max_results` of a list that enumerates `legacySets`
    without repetition. -/
theorem findLegacySubsets_spec {cands : List Item} {target : ℤ} {maxResults : Nat}
    (hp : ItemPool cands) (htarget : 0 < target) (hresults : 1 ≤ maxResults) :
    findLegacySubsets cands target maxResults =
      .ok ⟨(distinctBy List.toFinset (legacyTuples cands target)).take maxResults, false⟩ := by
  have hbounds : ¬ (target ≤ 0 ∨ maxResults < 1) := by omega
  unfold findLegacySubsets
  rw [if_neg hbounds, checkItems_ok hp.nodup hp.pos, firstDistinct_eq_take _ hresults]
  rfl

/-! ## What the callers' branch finds -/

/-- The sets the branch reports for a pool: exact up to five terms in a small pool, the amount-indexed
    search in a large one. -/
def foundSets (cands : List Item) (target : ℤ) : Finset (Finset String) :=
  if cands.length ≤ setsumExpansionMaxCandidates then
    sumSets (poolIds cands) (amountOf cands) 2 5 target 0
  else legacySets cands target

theorem two_le_card_of_mem_foundSets {cands : List Item} {target : ℤ} (hv : ValidPool cands target)
    {s : Finset String} (h : s ∈ foundSets cands target) : 2 ≤ s.card := by
  unfold foundSets at h
  split at h
  · exact (mem_sumSets.mp h).2.1
  · rcases (mem_legacySets hv.items).mp h with hsum | ⟨x, y, hxy, rfl⟩
    · exact (mem_sumSets.mp hsum).2.1
    · rw [Finset.card_pair (ne_of_gt hxy.2.1)]

/-- A reported tuple is duplicate-free and sums to the target, or it doubles an identity of a large pool. -/
def TupleSound (cands : List Item) (target : ℤ) (t : List String) : Prop :=
  (t.Nodup ∧ 2 ≤ t.length ∧ t.toFinset ∈ sumSets (poolIds cands) (amountOf cands) 2 5 target 0) ∨
    (setsumExpansionMaxCandidates < cands.length ∧
      ∃ x y, DoubledPair cands target x y ∧ t = [x.1, y.1, x.1])

/-- What the callers know about a search result. -/
structure SearchSpec (cands : List Item) (target : ℤ) (r : BoundedSubsetResult) : Prop where
  exhausted : r.exhausted = false
  length_eq : r.subsets.length = min 2 (foundSets cands target).card
  nodup : (r.subsets.map List.toFinset).Nodup
  mem : ∀ t ∈ r.subsets, t.toFinset ∈ foundSets cands target
  sound : ∀ t ∈ r.subsets, TupleSound cands target t

theorem SearchSpec.of_enumeration {cands : List Item} {target : ℤ} {all : List (List String)}
    (hnd : (all.map List.toFinset).Nodup)
    (hset : (all.map List.toFinset).toFinset = foundSets cands target)
    (hsound : ∀ t ∈ all, TupleSound cands target t) :
    SearchSpec cands target ⟨all.take 2, false⟩ where
  exhausted := rfl
  length_eq := by
    rw [← hset, List.toFinset_card_of_nodup hnd, List.length_map, List.length_take]
  nodup := hnd.sublist ((List.take_sublist 2 all).map _)
  mem := by
    intro t ht
    rw [← hset, List.mem_toFinset]
    exact List.mem_map_of_mem (List.mem_of_mem_take ht)
  sound := fun t ht => hsound t (List.mem_of_mem_take ht)

/-- No amount of a valid pool is the target itself, so no one-element set sums to it. -/
theorem sumSets_one_eq_two {cands : List Item} {target : ℤ} (hv : ValidPool cands target) (hi : Nat) :
    sumSets (poolIds cands) (amountOf cands) 1 hi target 0
      = sumSets (poolIds cands) (amountOf cands) 2 hi target 0 := by
  apply Finset.ext
  intro s
  rw [mem_sumSets, mem_sumSets]
  refine ⟨fun h => ?_, fun h => ⟨h.1, by omega, h.2.2⟩⟩
  obtain ⟨hs, hlo, hhi, htol⟩ := h
  refine ⟨hs, ?_, hhi, htol⟩
  by_contra hcard
  obtain ⟨i, rfl⟩ := Finset.card_eq_one.mp (show s.card = 1 by omega)
  obtain ⟨a, ha, rfl⟩ := mem_identities.mp (hs (Finset.mem_singleton_self i))
  have hlt := hv.lt a ha
  have hzero := abs_nonpos_iff.mp htol
  rw [Finset.sum_singleton, amountOf_mem hv.nodup ha] at hzero
  omega

theorem sumSets_mono {ids : Finset String} {amount : String → ℤ} {lo hi hi' : Nat} {target tol : ℤ}
    (h : hi ≤ hi') {s : Finset String} (hs : s ∈ sumSets ids amount lo hi target tol) :
    s ∈ sumSets ids amount lo hi' target tol := by
  obtain ⟨hsub, hlo, hhi, htol⟩ := mem_sumSets.mp hs
  exact mem_sumSets.mpr ⟨hsub, hlo, by omega, htol⟩

/-- At most 16 items have at most 6884 combinations of one to five terms: the budget is never reached. -/
theorem length_combinationsInRange_le {cands : List Item} (h : cands.length ≤ 16)
    {b : SubsetBounds} (hmin : b.minTerms = 1) (hmax : b.maxTerms = 5) :
    (combinationsInRange b cands).length ≤ 6884 := by
  unfold combinationsInRange
  rw [hmin, hmax]
  have hle : ∀ k, cands.length.choose k ≤ Nat.choose 16 k := fun k => Nat.choose_le_choose k h
  have h1 := hle 1
  have h2 := hle 2
  have h3 := hle 3
  have h4 := hle 4
  have h5 := hle 5
  rw [show List.range' 1 (5 + 1 - 1) = [1, 2, 3, 4, 5] from rfl]
  simp only [List.flatMap_cons, List.flatMap_nil, List.length_append, length_combinations,
    List.length_nil]
  simp only [show Nat.choose 16 1 = 16 from rfl, show Nat.choose 16 2 = 120 from rfl,
    show Nat.choose 16 3 = 560 from rfl, show Nat.choose 16 4 = 1820 from rfl,
    show Nat.choose 16 5 = 4368 from rfl] at h1 h2 h3 h4 h5
  omega

/-- **The branch never fails on a valid pool**, is never exhausted, and meets `SearchSpec`. -/
theorem setsumSearch_spec {cands : List Item} {target : ℤ} (hv : ValidPool cands target)
    (htarget : 0 < target) : ∃ r, setsumSearch cands target = .ok r ∧ SearchSpec cands target r := by
  unfold setsumSearch
  by_cases hlen : cands.length ≤ setsumExpansionMaxCandidates
  · rw [if_pos hlen]
    have hspec := boundedMatches_spec setsumBounds target hv.nodup
    have hbudget : (combinationsInRange setsumBounds cands).length ≤ 6884 :=
      length_combinationsInRange_le hlen rfl rfl
    refine ⟨_, findBoundedSubsets_spec hv.nodup hv.pos htarget (by decide) (by decide) rfl hlen
      (by decide) (by decide) (by decide) (hbudget.trans (by decide)), ?_⟩
    have hfound : foundSets cands target
        = sumSets (poolIds cands) (amountOf cands) 1 5 target 0 := by
      unfold foundSets
      rw [if_pos hlen, sumSets_one_eq_two hv]
    refine SearchSpec.of_enumeration hspec.1 (hspec.2.trans hfound.symm) ?_
    intro t ht
    have hmem := List.mem_toFinset.mpr (List.mem_map_of_mem (f := List.toFinset) ht)
    rw [hspec.2] at hmem
    have hmem2 : t.toFinset ∈ sumSets (poolIds cands) (amountOf cands) 2 5 target 0 := by
      rw [← sumSets_one_eq_two hv]
      exact hmem
    obtain ⟨c, hc, rfl⟩ := List.mem_map.mp ht
    have hsub := (mem_combinationsInRange.mp (List.mem_filter.mp hc).1).1
    have hcard := (mem_sumSets.mp hmem2).2.1
    rw [toFinset_map_fst, card_identities hv.nodup hsub] at hcard
    exact Or.inl ⟨(hsub.map _).nodup hv.nodup, by simpa using hcard, hmem2⟩
  · rw [if_neg hlen]
    refine ⟨_, findLegacySubsets_spec hv.items htarget (by decide), ?_⟩
    refine SearchSpec.of_enumeration (nodup_map_distinctBy _ _) ?_ ?_
    · unfold foundSets
      rw [if_neg hlen, toFinset_map_distinctBy]
      rfl
    · intro t ht
      rcases legacyTuples_cases hv.items ((distinctBy_sublist _ _).subset ht) with ⟨hnd, hmem⟩ | hdoubled
      · have hcard := (mem_sumSets.mp hmem).2.1
        rw [List.toFinset_card_of_nodup hnd] at hcard
        exact Or.inl ⟨hnd, hcard, sumSets_mono (by omega) hmem⟩
      · exact Or.inr ⟨Nat.lt_of_not_le hlen, hdoubled⟩

end Untangle
