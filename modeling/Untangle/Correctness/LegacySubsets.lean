import Untangle.Correctness.BoundedSubsets

/-!
# `Correctness.LegacySubsets` — when the amount-indexed search is exact

`find_legacy_subsets` is meant to return the two- and three-element subsets of its items that sum to the target:
each once, none twice, and all of them up to `max_results` (`ExactSubsets`). It falls short of this exactly at
a doubled pair (`DoubledPair`) whose tuple `(x, y, x)` is looked up before `max_results` subsets have been
found. `legacy_exact_iff` says so; the number of subsets found by then (`foundBefore`) is a count over the
items, since the loops look tuples up in the lexicographic order of list positions (`LookedUpBefore`).
-/

namespace Untangle

open Lib

/-! ## The promise -/

/-- What the two searches promise of a result, `find_bounded_subsets` within whatever budgets it is given. -/
structure ExactSubsets (cands : List Item) (target : ℤ) (maxResults : Nat) (r : BoundedSubsetResult) :
    Prop where
  sound : ∀ t ∈ r.subsets, t.Nodup ∧ (∀ id ∈ t, id ∈ cands.map Prod.fst) ∧
    (t.map (amountOf cands)).sum = target
  distinct : (r.subsets.map List.toFinset).Nodup
  complete : r.subsets.length = min maxResults (genuineSets cands target).card
  agrees : (genuineSets cands target).card < maxResults →
    ∀ b : SubsetBounds, b.minTerms = 2 → b.maxTerms = 3 → b.tolerance = 0 → 1 ≤ b.maxItems →
      1 ≤ b.maxCombinations → (genuineSets cands target).card < b.maxResults →
      ∃ r', findBoundedSubsets cands target b = .ok r' ∧
        (r'.exhausted = false →
          (r.subsets.map List.toFinset).toFinset = (r'.subsets.map List.toFinset).toFinset)

/-- The call returns, and what it returns is exact. -/
def LegacyExact (cands : List Item) (target : ℤ) (maxResults : Nat) : Prop :=
  ∃ r, findLegacySubsets cands target maxResults = .ok r ∧ ExactSubsets cands target maxResults r

/-! ## The order of the lookups -/

/-- The three-term loop reaches the first triple before the second: positions in the list are compared one
    after the other. -/
def LookedUpBefore (cands : List Item) (a b c x y z : Item) : Prop :=
  [a, x].Sublist cands ∨ a = x ∧ ([b, y].Sublist cands ∨ b = y ∧ [c, z].Sublist cands)

instance (cands : List Item) (a b c x y z : Item) : Decidable (LookedUpBefore cands a b c x y z) :=
  inferInstanceAs (Decidable (_ ∨ _))

/-- A subset has been found when the loop comes to the tuple `(x, y, x)`: all pairs have, and a triple has if
    one of its lookups comes earlier. -/
def FoundBefore (cands : List Item) (x y : Item) (s : Finset String) : Prop :=
  s.card = 2 ∨ ∃ a ∈ cands, ∃ b ∈ cands, ∃ c ∈ cands, [a, b].Sublist cands ∧ b.1 < c.1 ∧
    s = {a.1, b.1, c.1} ∧ LookedUpBefore cands a b c x y x

instance (cands : List Item) (x y : Item) : DecidablePred (FoundBefore cands x y) :=
  fun _ => inferInstanceAs (Decidable (_ ∨ _))

/-- How many of the subsets have been found by then. -/
def foundBefore (cands : List Item) (target : ℤ) (x y : Item) : Nat :=
  ((genuineSets cands target).filter (FoundBefore cands x y)).card

section Order

variable {cands : List Item} {target : ℤ}

/-- The order of the lookups, on the tuples of identities. -/
def TupleBefore (cands : List Item) (t t' : List String) : Prop :=
  ∃ a ∈ cands, ∃ b ∈ cands, ∃ c ∈ cands, ∃ x ∈ cands, ∃ y ∈ cands, ∃ z ∈ cands,
    t = [a.1, b.1, c.1] ∧ t' = [x.1, y.1, z.1] ∧ LookedUpBefore cands a b c x y z

theorem rowTuples_pairwise {first second : Item} (hfirst : first ∈ cands) (hsecond : second ∈ cands) :
    (rowTuples cands target first second).Pairwise (TupleBefore cands) := by
  unfold rowTuples
  by_cases hrem : target - first.2 - second.2 ≤ 0
  · rw [if_pos hrem]
    exact List.Pairwise.nil
  · rw [if_neg hrem, idsOfValue_eq, List.pairwise_map]
    apply List.Pairwise.filter
    rw [List.pairwise_map]
    apply List.pairwise_iff_forall_sublist.mpr
    intro c c' hsub
    have hin : [c, c'].Sublist cands := hsub.trans List.filter_sublist
    exact ⟨first, hfirst, second, hsecond, c, hin.subset (by simp), first, hfirst, second, hsecond, c',
      hin.subset (by simp), rfl, rfl, Or.inr ⟨rfl, Or.inr ⟨rfl, hin⟩⟩⟩

/-- **The three-term loop goes through its tuples in the order of the positions.** -/
theorem tripleTuples_pairwise :
    ∀ {l : List Item}, l.Sublist cands → (tripleTuples cands target l).Pairwise (TupleBefore cands) := by
  intro l
  induction l with
  | nil => intro _; exact List.Pairwise.nil
  | cons first rest ih =>
      intro hsub
      have hfirst : first ∈ cands := hsub.subset (by simp)
      have hrest : rest.Sublist cands := (List.sublist_cons_self first rest).trans hsub
      rw [tripleTuples_cons, List.pairwise_append, List.pairwise_flatMap]
      refine ⟨⟨fun second hsecond => rowTuples_pairwise hfirst (hrest.subset hsecond), ?_⟩, ih hrest, ?_⟩
      · -- the same `first`: what decides is the position of `second`
        apply List.pairwise_iff_forall_sublist.mpr
        intro b y hby t ht t' ht'
        have hin : [b, y].Sublist cands := hby.trans hrest
        obtain ⟨c, hc, _, _, _, rfl⟩ := mem_rowTuples.mp ht
        obtain ⟨z, hz, _, _, _, rfl⟩ := mem_rowTuples.mp ht'
        exact ⟨first, hfirst, b, hin.subset (by simp), c, hc, first, hfirst, y, hin.subset (by simp), z, hz,
          rfl, rfl, Or.inr ⟨rfl, Or.inl hin⟩⟩
      · intro t ht t' ht'
        obtain ⟨b, hb, ht⟩ := List.mem_flatMap.mp ht
        obtain ⟨c, hc, _, _, _, rfl⟩ := mem_rowTuples.mp ht
        obtain ⟨x, y, hxy, z, hz, _, _, _, rfl⟩ := mem_tripleTuples.mp ht'
        have hx : x ∈ rest := hxy.subset (by simp)
        have hin : [first, x].Sublist cands :=
          ((List.singleton_sublist.mpr hx).cons_cons first).trans hsub
        exact ⟨first, hfirst, b, hrest.subset hb, c, hc, x, hrest.subset hx, y,
          hrest.subset (hxy.subset (by simp)), z, hz, rfl, rfl, Or.inl hin⟩

/-- In a list without repetitions, of two members only one stands before the other. -/
theorem pair_sublist_asymm {α : Type} {a b : α} :
    ∀ {l : List α}, l.Nodup → [a, b].Sublist l → ¬ [b, a].Sublist l := by
  intro l
  induction l with
  | nil => intro _ h; exact absurd (h.subset (a := a) (by simp)) List.not_mem_nil
  | cons x l ih =>
      intro hnd hab hba
      obtain ⟨hx, hl⟩ := List.nodup_cons.mp hnd
      rcases List.sublist_cons_iff.mp hab with hab' | ⟨r, hr, hb⟩
      · rcases List.sublist_cons_iff.mp hba with hba' | ⟨r, hr, ha⟩
        · exact ih hl hab' hba'
        · obtain ⟨rfl, rfl⟩ := List.cons.inj hr
          exact hx (hab'.subset (by simp))
      · obtain ⟨rfl, rfl⟩ := List.cons.inj hr
        rcases List.sublist_cons_iff.mp hba with hba' | ⟨r, hr, ha⟩
        · exact hx (hba'.subset (by simp))
        · obtain ⟨rfl, rfl⟩ := List.cons.inj hr
          exact hx (hb.subset (by simp))

theorem pair_sublist_ne {α : Type} {a b : α} {l : List α} (hnd : l.Nodup) (h : [a, b].Sublist l) : a ≠ b := by
  simpa using h.nodup hnd

theorem LookedUpBefore.asymm (hnd : cands.Nodup) {a b c x y z : Item}
    (h : LookedUpBefore cands a b c x y z) : ¬ LookedUpBefore cands x y z a b c := by
  rcases h with hax | ⟨rfl, hby | ⟨rfl, hcz⟩⟩
  · rintro (hxa | ⟨hxa, _⟩)
    · exact pair_sublist_asymm hnd hax hxa
    · exact pair_sublist_ne hnd hax hxa.symm
  · rintro (haa | ⟨_, hyb | ⟨hyb, _⟩⟩)
    · exact pair_sublist_ne hnd haa rfl
    · exact pair_sublist_asymm hnd hby hyb
    · exact pair_sublist_ne hnd hby hyb.symm
  · rintro (haa | ⟨_, hbb | ⟨_, hzc⟩⟩)
    · exact pair_sublist_ne hnd haa rfl
    · exact pair_sublist_ne hnd hbb rfl
    · exact pair_sublist_asymm hnd hcz hzc

/-- On identities the order says the same of the items behind them. -/
theorem tupleBefore_iff (hp : ItemPool cands) {a b c x y z : Item} (ha : a ∈ cands) (hb : b ∈ cands)
    (hc : c ∈ cands) (hx : x ∈ cands) (hy : y ∈ cands) (hz : z ∈ cands) :
    TupleBefore cands [a.1, b.1, c.1] [x.1, y.1, z.1] ↔ LookedUpBefore cands a b c x y z := by
  refine ⟨fun h => ?_, fun h => ⟨a, ha, b, hb, c, hc, x, hx, y, hy, z, hz, rfl, rfl, h⟩⟩
  obtain ⟨a', ha', b', hb', c', hc', x', hx', y', hy', z', hz', ht, ht', h⟩ := h
  simp only [List.cons.injEq, and_true] at ht ht'
  rw [item_ext hp.nodup ha ha' ht.1, item_ext hp.nodup hb hb' ht.2.1, item_ext hp.nodup hc hc' ht.2.2,
    item_ext hp.nodup hx hx' ht'.1, item_ext hp.nodup hy hy' ht'.2.1, item_ext hp.nodup hz hz' ht'.2.2]
  exact h

theorem length_of_mem_pairTuples {t : List String} (h : t ∈ pairTuples cands target) : t.length = 2 := by
  obtain ⟨a, _, b, _, _, _, rfl⟩ := mem_pairTuples.mp h
  rfl

/-- The pairs come first, in whatever order, and then the triples in theirs. -/
theorem legacyTuples_pairwise :
    (legacyTuples cands target).Pairwise fun t t' => t.length = 2 ∨ TupleBefore cands t t' := by
  unfold legacyTuples
  rw [List.pairwise_append]
  refine ⟨?_, ?_, fun t ht _ _ => Or.inl (length_of_mem_pairTuples ht)⟩
  · exact List.Pairwise.imp_of_mem (fun ht _ _ => Or.inl (length_of_mem_pairTuples ht))
      (List.pairwise_of_forall (R := fun _ _ => True) fun _ _ => trivial)
  · exact (tripleTuples_pairwise (List.Sublist.refl cands)).imp Or.inr

end Order

/-! ## What has been found when a doubled pair comes up -/

section Found

variable {cands : List Item} {target : ℤ}

theorem mem_genuineSets {s : Finset String} (h : s ∈ genuineSets cands target) :
    s ⊆ poolIds cands ∧ (s.card = 2 ∨ s.card = 3) ∧ ∑ i ∈ s, amountOf cands i = target := by
  obtain ⟨hs, hlo, hhi, htol⟩ := mem_sumSets.mp h
  refine ⟨hs, by omega, ?_⟩
  have hzero := abs_nonpos_iff.mp htol
  omega

theorem doubled_mem (hp : ItemPool cands) {x y : Item} (hxy : DoubledPair cands target x y) :
    [x.1, y.1, x.1] ∈ legacyTuples cands target := by
  obtain ⟨hsub, hlt, hsum⟩ := hxy
  have hx : x ∈ cands := hsub.subset (by simp)
  exact List.mem_append_right _
    (mem_tripleTuples.mpr ⟨x, y, hsub, x, hx, hp.pos x hx, by omega, hlt, rfl⟩)

theorem doubled_not_nodup (x y : Item) : ¬ [x.1, y.1, x.1].Nodup := by
  simp

/-- Only the doubled tuple itself has its set. -/
theorem eq_doubled (hp : ItemPool cands) {x y : Item} (hxy : DoubledPair cands target x y) {t : List String}
    (ht : t ∈ legacyTuples cands target) (hset : t.toFinset = [x.1, y.1, x.1].toFinset) :
    t = [x.1, y.1, x.1] := by
  have hpair : [x.1, y.1, x.1].toFinset = {x.1, y.1} := by simp [Finset.pair_comm]
  rcases legacyTuples_cases hp ht with ⟨_, hsum⟩ | ⟨x', y', hxy', rfl⟩
  · rw [hset, hpair] at hsum
    exact absurd hsum (doubledPair_not_sum hp hxy)
  · have hpair' : [x'.1, y'.1, x'.1].toFinset = {x'.1, y'.1} := by simp [Finset.pair_comm]
    rw [hpair, hpair'] at hset
    obtain ⟨rfl, rfl⟩ := doubledPair_ext hp hxy hxy' hset
    rfl

/-- A genuine subset has been found when the doubled tuple comes up just if its set is the set of a tuple
    visited before. -/
theorem foundBefore_iff (hp : ItemPool cands) {x y : Item} (hxy : DoubledPair cands target x y)
    {pre post : List (List String)} (hsplit : legacyTuples cands target = pre ++ [x.1, y.1, x.1] :: post)
    {s : Finset String} (hs : s ∈ genuineSets cands target) :
    FoundBefore cands x y s ↔ s ∈ pre.map List.toFinset := by
  have hx : x ∈ cands := hxy.1.subset (by simp)
  have hy : y ∈ cands := hxy.1.subset (by simp)
  have horder : (legacyTuples cands target).Pairwise fun t t' => t.length = 2 ∨ TupleBefore cands t t' :=
    legacyTuples_pairwise
  rw [hsplit, List.pairwise_append, List.pairwise_cons] at horder
  obtain ⟨_, ⟨hafter, _⟩, hbefore⟩ := horder
  obtain ⟨hsub, hcard, hsum⟩ := mem_genuineSets hs
  -- a tuple that is not before the doubled one comes after it
  have hpre : ∀ t ∈ legacyTuples cands target, t.toFinset = s → ¬ TupleBefore cands [x.1, y.1, x.1] t →
      s ∈ pre.map List.toFinset := by
    intro t ht hts hnot
    have hmem : t ∈ pre ++ [x.1, y.1, x.1] :: post := hsplit ▸ ht
    rcases List.mem_append.mp hmem with hmem | hmem
    · exact List.mem_map.mpr ⟨t, hmem, hts⟩
    · rcases List.mem_cons.mp hmem with rfl | hmem
      · have hpair : [x.1, y.1, x.1].toFinset = {x.1, y.1} := by simp [Finset.pair_comm]
        rw [← hts, hpair] at hs
        exact absurd hs (doubledPair_not_sum hp hxy)
      · exact absurd ((hafter t hmem).resolve_left (by simp)) hnot
  have hpairs : s.card = 2 → s ∈ pre.map List.toFinset := by
    intro htwo
    obtain ⟨t, ht, hts⟩ := exists_tuple_of_mem_sumSets hp hs
    refine hpre t ht hts ?_
    rintro ⟨_, _, _, _, _, _, a, _, b, _, c, _, _, rfl, _⟩
    rcases legacyTuples_cases hp ht with ⟨hnd, _⟩ | ⟨x', y', hxy', heq⟩
    · rw [← hts, List.toFinset_card_of_nodup hnd] at htwo
      simp at htwo
    · have hpair : [x'.1, y'.1, x'.1].toFinset = {x'.1, y'.1} := by simp [Finset.pair_comm]
      rw [← hts, heq, hpair] at hs
      exact doubledPair_not_sum hp hxy' hs
  constructor
  · rintro (htwo | ⟨a, ha, b, hb, c, hc, hab, hlt, rfl, hlook⟩)
    · exact hpairs htwo
    rcases hcard with htwo | hthree
    · exact hpairs htwo
    have hset : ({a.1, b.1, c.1} : Finset String) = [a.1, b.1, c.1].toFinset := by simp
    have hnd : [a.1, b.1, c.1].Nodup :=
      Multiset.toFinset_card_eq_card_iff_nodup.mp ((congrArg Finset.card hset).symm.trans hthree)
    rw [hset, List.sum_toFinset _ hnd] at hsum
    simp only [List.map_cons, List.map_nil, List.sum_cons, List.sum_nil, add_zero,
      amountOf_mem hp.nodup ha, amountOf_mem hp.nodup hb, amountOf_mem hp.nodup hc] at hsum
    refine hpre [a.1, b.1, c.1] (List.mem_append_right _ (mem_tripleTuples.mpr
      ⟨a, b, hab, c, hc, hp.pos c hc, by omega, hlt, rfl⟩)) hset.symm ?_
    rw [tupleBefore_iff hp hx hy hx ha hb hc]
    exact hlook.asymm hp.nodup.of_map
  · intro h
    obtain ⟨t, ht, rfl⟩ := List.mem_map.mp h
    have hvisited : t ∈ legacyTuples cands target := by
      rw [hsplit]
      exact List.mem_append_left _ ht
    rcases List.mem_append.mp hvisited with hpair | htriple
    · refine Or.inl ?_
      have hle := List.toFinset_card_le t
      rw [length_of_mem_pairTuples hpair] at hle
      omega
    · obtain ⟨a, b, hab, c, hc, _, _, hlt, rfl⟩ := mem_tripleTuples.mp htriple
      have ha : a ∈ cands := hab.subset (by simp)
      have hb : b ∈ cands := hab.subset (by simp)
      have hlook := (hbefore _ ht _ List.mem_cons_self).resolve_left (by simp)
      rw [tupleBefore_iff hp ha hb hc hx hy hx] at hlook
      exact Or.inr ⟨a, ha, b, hb, c, hc, hab, hlt, by simp, hlook⟩

theorem foundBefore_eq (hp : ItemPool cands) {x y : Item} (hxy : DoubledPair cands target x y)
    {pre post : List (List String)} (hsplit : legacyTuples cands target = pre ++ [x.1, y.1, x.1] :: post) :
    foundBefore cands target x y =
      ((genuineSets cands target).filter (· ∈ pre.map List.toFinset)).card := by
  unfold foundBefore
  exact congrArg Finset.card (Finset.filter_congr fun s hs => foundBefore_iff hp hxy hsplit hs)

/-- The doubled tuple is kept, right behind what was kept of the tuples before it. -/
theorem exists_kept_doubled (hp : ItemPool cands) {x y : Item} (hxy : DoubledPair cands target x y) :
    ∃ pre post rest, legacyTuples cands target = pre ++ [x.1, y.1, x.1] :: post ∧
      [x.1, y.1, x.1] ∉ pre ∧
      distinctBy List.toFinset (legacyTuples cands target) =
        distinctBy List.toFinset pre ++ [x.1, y.1, x.1] :: rest := by
  obtain ⟨pre, post, hsplit, hnew⟩ := List.eq_append_cons_of_mem (doubled_mem hp hxy)
  have hset : [x.1, y.1, x.1].toFinset ∉ pre.map List.toFinset := by
    intro h
    obtain ⟨t, ht, heq⟩ := List.mem_map.mp h
    have hvisited : t ∈ legacyTuples cands target := by
      rw [hsplit]
      exact List.mem_append_left _ ht
    exact hnew (eq_doubled hp hxy hvisited heq ▸ ht)
  have hkept : ∃ rest, distinctBy List.toFinset (pre ++ [x.1, y.1, x.1] :: post) =
      distinctBy List.toFinset pre ++ [x.1, y.1, x.1] :: rest := exists_distinctBy_split List.toFinset hset
  obtain ⟨rest, hrest⟩ := hkept
  exact ⟨pre, post, rest, hsplit, hnew, hsplit ▸ hrest⟩

end Found

/-! ## When the search is exact -/

section Exact

variable {cands : List Item} {target : ℤ} {maxResults : Nat}

/-- The exhaustive search over two and three terms finds the same subsets, unless a budget stops it. -/
theorem findBoundedSubsets_genuine (hp : ItemPool cands) (htarget : 0 < target) {b : SubsetBounds}
    (hmin : b.minTerms = 2) (hmax : b.maxTerms = 3) (htol : b.tolerance = 0) (hitems : 1 ≤ b.maxItems)
    (hcombos : 1 ≤ b.maxCombinations) (hresults : (genuineSets cands target).card < b.maxResults) :
    ∃ r, findBoundedSubsets cands target b = .ok r ∧
      (r.exhausted = false → (r.subsets.map List.toFinset).toFinset = genuineSets cands target) := by
  have hbounds : ¬ (target ≤ 0 ∨ b.tolerance < 0 ∨ b.maxTerms < b.minTerms) := by omega
  have hbudgets : ¬ (b.maxItems < 1 ∨ b.maxCombinations < 1 ∨ b.maxResults < 1) := by omega
  unfold findBoundedSubsets
  rw [if_neg hbounds, if_neg hbudgets]
  have hperm : (if b.sortItems then cands.insertionSort (fun x y => x.1 ≤ y.1) else cands).Perm cands := by
    split
    · exact List.perm_insertionSort _ _
    · exact List.Perm.refl _
  generalize (if b.sortItems then cands.insertionSort (fun x y => x.1 ≤ y.1) else cands) = ordered at hperm
  have hordered : ItemPool ordered := hp.perm hperm.symm
  have hspec := boundedMatches_spec b target hordered.nodup
  rw [hmin, hmax, htol] at hspec
  have hsame : sumSets (poolIds ordered) (amountOf ordered) 2 3 target 0 = genuineSets cands target :=
    genuineSets_perm hordered hperm
  rw [hsame] at hspec
  by_cases hlong : b.maxItems < ordered.length
  · refine ⟨⟨[], true⟩, ?_, fun h => Bool.noConfusion h⟩
    simp only [if_pos hlong]
    rfl
  · simp only [if_neg hlong, checkItems_ok hordered.nodup hordered.pos]
    refine ⟨_, rfl, ?_⟩
    rcases examine_cases b target (combinationsInRange b ordered) [] 0 (by simp; omega) with h | ⟨h, _⟩
    · intro _
      rw [h, List.nil_append]
      show ((((boundedMatches b ordered target).map (·.map Prod.fst)).take b.maxResults).map
        List.toFinset).toFinset = genuineSets cands target
      have hlen : ((boundedMatches b ordered target).map (·.map Prod.fst)).length =
          (genuineSets cands target).card := by
        rw [← hspec.2, List.toFinset_card_of_nodup hspec.1]
        simp only [List.length_map]
      rw [List.take_of_length_le (by omega)]
      exact hspec.2
    · intro hex
      rw [h] at hex
      exact Bool.noConfusion hex

theorem genuine_of_nodup (hp : ItemPool cands) {t : List String} (ht : t ∈ legacyTuples cands target)
    (hnd : t.Nodup) : t.toFinset ∈ genuineSets cands target := by
  rcases legacyTuples_cases hp ht with ⟨_, h⟩ | ⟨x, y, _, rfl⟩
  · exact h
  · exact absurd hnd (doubled_not_nodup x y)

/-- A search that returns no doubled tuple is exact. -/
theorem exact_of_nodup (hp : ItemPool cands) (htarget : 0 < target)
    (hnd : ∀ t ∈ (distinctBy List.toFinset (legacyTuples cands target)).take maxResults, t.Nodup)
    (hlen : min maxResults (legacySets cands target).card = min maxResults (genuineSets cands target).card) :
    ExactSubsets cands target maxResults
      ⟨(distinctBy List.toFinset (legacyTuples cands target)).take maxResults, false⟩ := by
  have hvisited : ∀ t ∈ (distinctBy List.toFinset (legacyTuples cands target)).take maxResults,
      t ∈ legacyTuples cands target :=
    fun t ht => (distinctBy_sublist _ _).subset (List.mem_of_mem_take ht)
  have hgenuine : ∀ t ∈ (distinctBy List.toFinset (legacyTuples cands target)).take maxResults,
      t.toFinset ∈ genuineSets cands target := fun t ht => genuine_of_nodup hp (hvisited t ht) (hnd t ht)
  have hdistinct : (((distinctBy List.toFinset (legacyTuples cands target)).take maxResults).map
      List.toFinset).Nodup :=
    (nodup_map_distinctBy List.toFinset (legacyTuples cands target)).sublist
      ((List.take_sublist _ _).map _)
  have hlength : ((distinctBy List.toFinset (legacyTuples cands target)).take maxResults).length =
      min maxResults (genuineSets cands target).card := by
    rw [List.length_take, length_distinctBy]
    exact hlen
  refine ⟨?_, hdistinct, hlength, ?_⟩
  · intro t ht
    obtain ⟨hsub, _, hsum⟩ := mem_genuineSets (hgenuine t ht)
    rw [List.sum_toFinset _ (hnd t ht)] at hsum
    refine ⟨hnd t ht, fun id hid => ?_, hsum⟩
    obtain ⟨a, ha, rfl⟩ := mem_identities.mp (hsub (List.mem_toFinset.mpr hid))
    exact List.mem_map_of_mem ha
  · intro hfew b hmin hmax htol hitems hcombos hresults
    obtain ⟨r', hr', hsets⟩ := findBoundedSubsets_genuine hp htarget hmin hmax htol hitems hcombos hresults
    refine ⟨r', hr', fun hdone => ?_⟩
    rw [hsets hdone]
    apply Finset.eq_of_subset_of_card_le
    · intro s hs
      obtain ⟨t, ht, rfl⟩ := List.mem_map.mp (List.mem_toFinset.mp hs)
      exact hgenuine t ht
    · rw [List.toFinset_card_of_nodup hdistinct, List.length_map, hlength]
      exact le_min (Nat.le_of_lt hfew) le_rfl

/-- **The amount-indexed search keeps its promise just where** every doubled pair comes up after `max_results`
    of the subsets have been found. -/
theorem legacy_exact_iff (hp : ItemPool cands) (htarget : 0 < target) (hresults : 1 ≤ maxResults) :
    LegacyExact cands target maxResults ↔
      ∀ x y, DoubledPair cands target x y → maxResults ≤ foundBefore cands target x y := by
  have hrun := findLegacySubsets_spec hp htarget hresults
  constructor
  · rintro ⟨r, hr, hexact⟩ x y hxy
    rw [hrun] at hr
    obtain rfl := Except.ok.inj hr
    obtain ⟨pre, post, rest, hsplit, _, hkept⟩ := exists_kept_doubled hp hxy
    -- the doubled tuple is not returned, so what is returned was kept before it
    have hlate : maxResults ≤ (distinctBy List.toFinset pre).length := by
      by_contra hearly
      have hmem : [x.1, y.1, x.1] ∈
          (distinctBy List.toFinset (legacyTuples cands target)).take maxResults := by
        rw [hkept, List.take_append, List.mem_append]
        exact Or.inr (List.mem_take_iff_getElem.mpr ⟨0, by simp; omega, rfl⟩)
      exact doubled_not_nodup x y (hexact.sound _ hmem).1
    have htake : (distinctBy List.toFinset (legacyTuples cands target)).take maxResults =
        (distinctBy List.toFinset pre).take maxResults := by
      rw [hkept, List.take_append_of_le_length hlate]
    have hdistinct := hexact.distinct
    rw [htake] at hdistinct
    have hsubset : (((distinctBy List.toFinset pre).take maxResults).map List.toFinset).toFinset ⊆
        (genuineSets cands target).filter (· ∈ pre.map List.toFinset) := by
      intro s hs
      obtain ⟨t, ht, rfl⟩ := List.mem_map.mp (List.mem_toFinset.mp hs)
      have hpre : t ∈ pre := (distinctBy_sublist _ _).subset (List.mem_of_mem_take ht)
      have hvisited : t ∈ legacyTuples cands target := by
        rw [hsplit]
        exact List.mem_append_left _ hpre
      exact Finset.mem_filter.mpr ⟨genuine_of_nodup hp hvisited (hexact.sound t (htake ▸ ht)).1,
        List.mem_map_of_mem hpre⟩
    have hcard := Finset.card_le_card hsubset
    rw [List.toFinset_card_of_nodup hdistinct, List.length_map, List.length_take, min_eq_left hlate] at hcard
    rw [foundBefore_eq hp hxy hsplit]
    exact hcard
  · intro hlate
    refine ⟨_, hrun, exact_of_nodup hp htarget ?_ ?_⟩
    · intro t ht
      rcases legacyTuples_cases hp ((distinctBy_sublist _ _).subset (List.mem_of_mem_take ht)) with
        ⟨hnd, _⟩ | ⟨x, y, hxy, rfl⟩
      · exact hnd
      · -- a doubled tuple stands behind `max_results` others
        obtain ⟨pre, post, rest, hsplit, hnew, hkept⟩ := exists_kept_doubled hp hxy
        have hle : maxResults ≤ (distinctBy List.toFinset pre).length := by
          refine (hlate x y hxy).trans ?_
          rw [foundBefore_eq hp hxy hsplit, length_distinctBy]
          refine Finset.card_le_card fun s hs => ?_
          exact List.mem_toFinset.mpr (Finset.mem_filter.mp hs).2
        rw [hkept, List.take_append_of_le_length hle] at ht
        exact absurd ((distinctBy_sublist _ _).subset (List.mem_of_mem_take ht)) hnew
    · have hsub : genuineSets cands target ⊆ legacySets cands target :=
        fun s hs => (mem_legacySets hp).mpr (Or.inl hs)
      have hle := Finset.card_le_card hsub
      by_cases hdoubled : ∃ x y, DoubledPair cands target x y
      · obtain ⟨x, y, hxy⟩ := hdoubled
        have hmany : maxResults ≤ (genuineSets cands target).card :=
          (hlate x y hxy).trans (Finset.card_filter_le _ _)
        omega
      · have heq : legacySets cands target = genuineSets cands target := by
          refine Finset.Subset.antisymm (fun s hs => ?_) hsub
          rcases (mem_legacySets hp).mp hs with h | ⟨x, y, hxy, _⟩
          · exact h
          · exact absurd ⟨x, y, hxy⟩ hdoubled
        rw [heq]

end Exact

/-- A single subset is asked for, and a pair is found before `b` meets itself. -/
theorem legacy_exact_pairFirst : LegacyExact [("b", 1), ("a", 2), ("c", 3)] 4 1 := by
  refine (legacy_exact_iff ⟨by decide, by decide⟩ (by decide) le_rfl).mpr fun x y hxy => ?_
  have hall : ∀ x ∈ ([("b", 1), ("a", 2), ("c", 3)] : List Item),
      ∀ y ∈ ([("b", 1), ("a", 2), ("c", 3)] : List Item),
        DoubledPair [("b", 1), ("a", 2), ("c", 3)] 4 x y →
          1 ≤ foundBefore [("b", 1), ("a", 2), ("c", 3)] 4 x y := by
    decide +kernel
  exact hall x (hxy.1.subset (by simp)) y (hxy.1.subset (by simp)) hxy

/-! ## An item that meets itself -/

/-- Two items, `b` listed before `a`: twice `b` and once `a` make four, and the search reports `b` twice. -/
def meetsItself : List Item := [("b", 1), ("a", 2)]

theorem legacy_reuses_item : ItemPool meetsItself ∧ ¬ LegacyExact meetsItself 4 2 := by
  refine ⟨⟨by decide, by decide⟩, ?_⟩
  rintro ⟨r, hr, hexact⟩
  have hrun : findLegacySubsets meetsItself 4 2 = .ok ⟨[["b", "a", "b"]], false⟩ := by decide +kernel
  rw [hrun] at hr
  obtain rfl := Except.ok.inj hr
  exact absurd (hexact.sound ["b", "a", "b"] (by simp)).1 (by decide)

end Untangle
