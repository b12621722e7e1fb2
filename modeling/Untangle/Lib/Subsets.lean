import Mathlib.Data.Finset.Powerset
import Mathlib.Data.List.Sublists
import Mathlib.Algebra.BigOperators.Group.Finset.Basic
import Mathlib.Algebra.Ring.Int.Defs
import Mathlib.Algebra.Order.Group.Abs
import Mathlib.Algebra.Order.Group.Int

/-!
# `Lib.Subsets` — enumerating subsets of an identified list

A search for "the subsets of these items whose amounts add up to a target" is written over *lists* of items
(the order decides what is found first) while its purpose is a statement about *sets* of identities. This
module is the bridge.

## Contents
- **Enumeration.** `combinations k l`: the `k`-element sublists in positional order, a permutation of
  Mathlib's `List.sublistsLen`.
- **Identity.** For items with distinct identities a sublist is determined by its identities
  (`sublist_eq_filter`), and the `k`-combinations are, as identity sets, exactly the `k`-subsets
  (`identitySets_combinations`).
- **Early-stopping collection.** `firstDistinct f n l` walks `l`, keeps the elements whose `f`-image is new
  and stops at the `n`-th; it is a prefix of the unbounded walk `distinctBy f l`.
- **The abstract question.** `sumSets ids amount lo hi target tol`: all sets of `lo..hi` identities summing
  to the target up to `tol`. It depends on no order.
-/

namespace Lib

variable {α ι : Type}

/-! ## Combinations in positional order -/

/-- The `k`-element sublists of a list; earlier positions vary slowest. -/
def combinations : Nat → List α → List (List α)
  | 0, _ => [[]]
  | _ + 1, [] => []
  | k + 1, x :: xs => (combinations k xs).map (x :: ·) ++ combinations (k + 1) xs

theorem combinations_perm_sublistsLen (k : Nat) (l : List α) :
    (combinations k l).Perm (l.sublistsLen k) := by
  induction l generalizing k with
  | nil => cases k <;> simp [combinations]
  | cons x xs ih =>
      cases k with
      | zero => simp [combinations]
      | succ k =>
          rw [List.sublistsLen_succ_cons]
          exact (((ih k).map _).append (ih (k + 1))).trans List.perm_append_comm

theorem mem_combinations {k : Nat} {c l : List α} :
    c ∈ combinations k l ↔ c.Sublist l ∧ c.length = k := by
  rw [(combinations_perm_sublistsLen k l).mem_iff, List.mem_sublistsLen]

theorem length_combinations (k : Nat) (l : List α) :
    (combinations k l).length = l.length.choose k := by
  rw [(combinations_perm_sublistsLen k l).length_eq, List.length_sublistsLen]

theorem nodup_combinations {k : Nat} {l : List α} (h : l.Nodup) : (combinations k l).Nodup :=
  (combinations_perm_sublistsLen k l).nodup_iff.mpr (List.nodup_sublistsLen k h)

/-! ## Items with distinct identities -/

section Identity

variable [DecidableEq ι] {ident : α → ι} {items : List α}

/-- The identities of a chosen sublist. -/
def identities (ident : α → ι) (c : List α) : Finset ι := (c.map ident).toFinset

@[simp] theorem mem_identities {c : List α} {i : ι} :
    i ∈ identities ident c ↔ ∃ a ∈ c, ident a = i := by
  simp [identities]

/-- **A sublist is determined by its identities.** -/
theorem sublist_eq_filter (hnd : (items.map ident).Nodup) {c : List α} (h : c.Sublist items) :
    c = items.filter fun a => ident a ∈ identities ident c := by
  induction h with
  | slnil => rfl
  | @cons c l a hs ih =>
      rw [List.map_cons, List.nodup_cons] at hnd
      have ha : ident a ∉ identities ident c := by
        intro hm
        obtain ⟨b, hb, hba⟩ := mem_identities.mp hm
        exact hnd.1 (List.mem_map.mpr ⟨b, hs.subset hb, hba⟩)
      rw [List.filter_cons, if_neg (by simpa only [decide_eq_true_eq] using ha)]
      exact ih hnd.2
  | @cons_cons c l a hs ih =>
      rw [List.map_cons, List.nodup_cons] at hnd
      have ha : ident a ∈ identities ident (a :: c) := mem_identities.mpr ⟨a, by simp, rfl⟩
      rw [List.filter_cons, if_pos (decide_eq_true ha)]
      congr 1
      refine (ih hnd.2).trans (List.filter_congr fun b hb => ?_)
      have hne : ident b ≠ ident a := fun e => hnd.1 (List.mem_map.mpr ⟨b, hb, e⟩)
      simp [identities, hne]

theorem identities_injOn (hnd : (items.map ident).Nodup) {c d : List α} (hc : c.Sublist items)
    (hd : d.Sublist items) (h : identities ident c = identities ident d) : c = d := by
  rw [sublist_eq_filter hnd hc, sublist_eq_filter hnd hd, h]

theorem card_identities (hnd : (items.map ident).Nodup) {c : List α} (hc : c.Sublist items) :
    (identities ident c).card = c.length := by
  rw [identities, List.toFinset_card_of_nodup ((hc.map ident).nodup hnd), List.length_map]

theorem identities_subset {c : List α} (hc : c.Sublist items) :
    identities ident c ⊆ identities ident items := by
  intro i hi
  obtain ⟨a, ha, rfl⟩ := mem_identities.mp hi
  exact mem_identities.mpr ⟨a, hc.subset ha, rfl⟩

theorem identities_perm {l l' : List α} (h : l.Perm l') : identities ident l = identities ident l' :=
  List.toFinset_eq_of_perm _ _ (h.map ident)

/-- Every set of identities of the list is the identity set of one of its sublists. -/
theorem exists_sublist_of_subset {s : Finset ι} (hs : s ⊆ identities ident items) :
    ∃ c, c.Sublist items ∧ identities ident c = s := by
  refine ⟨items.filter fun a => ident a ∈ s, List.filter_sublist, ?_⟩
  ext i
  rw [mem_identities]
  constructor
  · rintro ⟨a, ha, rfl⟩
    simpa using (List.mem_filter.mp ha).2
  · intro hi
    obtain ⟨a, ha, rfl⟩ := mem_identities.mp (hs hi)
    exact ⟨a, List.mem_filter.mpr ⟨ha, by simpa using hi⟩, rfl⟩

/-- **As identity sets, the `k`-combinations are the `k`-subsets**, each met once. -/
theorem identitySets_combinations (hnd : (items.map ident).Nodup) (k : Nat) :
    ((combinations k items).map (identities ident)).Nodup ∧
      ((combinations k items).map (identities ident)).toFinset
        = (identities ident items).powersetCard k := by
  have hitems : items.Nodup := hnd.of_map ident
  refine ⟨?_, ?_⟩
  · refine List.Nodup.map_on ?_ (nodup_combinations hitems)
    intro c hc d hd h
    exact identities_injOn hnd (mem_combinations.mp hc).1 (mem_combinations.mp hd).1 h
  · ext s
    simp only [List.mem_toFinset, List.mem_map, mem_combinations, Finset.mem_powersetCard]
    constructor
    · rintro ⟨c, ⟨hc, rfl⟩, rfl⟩
      exact ⟨identities_subset hc, card_identities hnd hc⟩
    · rintro ⟨hs, rfl⟩
      obtain ⟨c, hc, rfl⟩ := exists_sublist_of_subset hs
      exact ⟨c, ⟨hc, (card_identities hnd hc).symm⟩, rfl⟩

theorem sum_identities {amount : ι → ℤ} {value : α → ℤ} (hnd : (items.map ident).Nodup)
    (hval : ∀ a ∈ items, amount (ident a) = value a) {c : List α} (hc : c.Sublist items) :
    ∑ i ∈ identities ident c, amount i = (c.map value).sum := by
  rw [identities, List.sum_toFinset _ ((hc.map ident).nodup hnd), List.map_map]
  congr 1
  exact List.map_congr_left fun a ha => hval a (hc.subset ha)

end Identity

/-! ## Collecting distinct elements, with and without an early stop -/

section Collect

variable {β : Type} [DecidableEq β] (f : α → β)

/-- Walk the list, keeping the elements whose image has not been seen. -/
def distinctFrom (seen : List β) : List α → List α
  | [] => []
  | a :: l => if f a ∈ seen then distinctFrom seen l else a :: distinctFrom (f a :: seen) l

/-- One representative of every `f`-image, in the order of first occurrence. -/
def distinctBy (l : List α) : List α := distinctFrom f [] l

/-- The same walk, returning as soon as `n` elements have been kept. -/
def firstDistinctFrom (n : Nat) (seen : List β) (kept : List α) : List α → List α
  | [] => kept
  | a :: l =>
    if f a ∈ seen then firstDistinctFrom n seen kept l
    else if n ≤ (kept ++ [a]).length then kept ++ [a]
    else firstDistinctFrom n (f a :: seen) (kept ++ [a]) l

def firstDistinct (n : Nat) (l : List α) : List α := firstDistinctFrom f n [] [] l

theorem firstDistinctFrom_eq {n : Nat} (l : List α) :
    ∀ {seen : List β} {kept : List α}, kept.length < n →
      firstDistinctFrom f n seen kept l = kept ++ (distinctFrom f seen l).take (n - kept.length) := by
  induction l with
  | nil =>
      intro seen kept _
      simp [firstDistinctFrom, distinctFrom]
  | cons a l ih =>
      intro seen kept hk
      unfold firstDistinctFrom distinctFrom
      by_cases ha : f a ∈ seen
      · rw [if_pos ha, if_pos ha]
        exact ih hk
      · rw [if_neg ha, if_neg ha]
        have hpos : n - kept.length = (n - kept.length - 1) + 1 := by omega
        rw [hpos, List.take_succ_cons]
        by_cases hn : n ≤ (kept ++ [a]).length
        · have hzero : n - kept.length - 1 = 0 := by
            simp only [List.length_append, List.length_singleton] at hn
            omega
          rw [if_pos hn, hzero, List.take_zero]
        · rw [if_neg hn, ih (by omega), List.append_assoc]
          simp [Nat.sub_sub]

/-- **Stopping early returns a prefix of the full walk.** -/
theorem firstDistinct_eq_take {n : Nat} (hn : 1 ≤ n) (l : List α) :
    firstDistinct f n l = (distinctBy f l).take n := by
  unfold firstDistinct distinctBy
  rw [firstDistinctFrom_eq f l (show ([] : List α).length < n from hn)]
  simp

theorem distinctFrom_spec (l : List α) :
    ∀ seen : List β, (distinctFrom f seen l).Sublist l ∧ ((distinctFrom f seen l).map f).Nodup ∧
      ∀ b, b ∈ (distinctFrom f seen l).map f ↔ b ∈ l.map f ∧ b ∉ seen := by
  induction l with
  | nil =>
      intro seen
      simp [distinctFrom]
  | cons a l ih =>
      intro seen
      unfold distinctFrom
      by_cases ha : f a ∈ seen
      · rw [if_pos ha]
        obtain ⟨hsub, hnd, hmem⟩ := ih seen
        refine ⟨hsub.cons a, hnd, fun b => ?_⟩
        rw [hmem, List.map_cons, List.mem_cons]
        constructor
        · rintro ⟨hb, hs⟩
          exact ⟨Or.inr hb, hs⟩
        · rintro ⟨rfl | hb, hs⟩
          · exact absurd ha hs
          · exact ⟨hb, hs⟩
      · rw [if_neg ha]
        obtain ⟨hsub, hnd, hmem⟩ := ih (f a :: seen)
        refine ⟨hsub.cons_cons a, ?_, fun b => ?_⟩
        · rw [List.map_cons, List.nodup_cons]
          exact ⟨fun h => ((hmem _).mp h).2 (by simp), hnd⟩
        · rw [List.map_cons, List.map_cons, List.mem_cons, List.mem_cons, hmem, List.mem_cons]
          constructor
          · rintro (rfl | ⟨hb, hs⟩)
            · exact ⟨Or.inl rfl, ha⟩
            · exact ⟨Or.inr hb, fun h => hs (Or.inr h)⟩
          · rintro ⟨rfl | hb, hs⟩
            · exact Or.inl rfl
            · by_cases hba : b = f a
              · exact Or.inl hba
              · exact Or.inr ⟨hb, fun h => h.elim hba hs⟩

theorem distinctBy_sublist (l : List α) : (distinctBy f l).Sublist l := (distinctFrom_spec f l []).1

theorem nodup_map_distinctBy (l : List α) : ((distinctBy f l).map f).Nodup :=
  (distinctFrom_spec f l []).2.1

theorem toFinset_map_distinctBy (l : List α) :
    ((distinctBy f l).map f).toFinset = (l.map f).toFinset := by
  ext b
  rw [List.mem_toFinset, List.mem_toFinset]
  exact ((distinctFrom_spec f l []).2.2 b).trans ⟨fun h => h.1, fun h => ⟨h, by simp⟩⟩

theorem length_distinctBy (l : List α) : (distinctBy f l).length = (l.map f).toFinset.card := by
  rw [← toFinset_map_distinctBy, List.toFinset_card_of_nodup (nodup_map_distinctBy f l),
    List.length_map]

theorem distinctFrom_split {a : α} {post : List α} :
    ∀ {pre : List α} {seen : List β}, f a ∉ seen → f a ∉ pre.map f →
      ∃ rest, distinctFrom f seen (pre ++ a :: post) = distinctFrom f seen pre ++ a :: rest := by
  intro pre
  induction pre with
  | nil =>
      intro seen hseen _
      refine ⟨distinctFrom f (f a :: seen) post, ?_⟩
      simp [distinctFrom, hseen]
  | cons b pre ih =>
      intro seen hseen hpre
      obtain ⟨hne, hpre'⟩ := not_or.mp (List.mem_cons.not.mp (List.map_cons ▸ hpre))
      rw [List.cons_append]
      unfold distinctFrom
      by_cases hb : f b ∈ seen
      · rw [if_pos hb, if_pos hb]
        exact ih hseen hpre'
      · rw [if_neg hb, if_neg hb]
        obtain ⟨rest, hrest⟩ := ih (List.not_mem_cons_of_ne_of_not_mem hne hseen) hpre'
        exact ⟨rest, by rw [hrest, List.cons_append]⟩

/-- An element whose image is new is kept right behind what was kept before it. -/
theorem exists_distinctBy_split {pre post : List α} {a : α} (h : f a ∉ pre.map f) :
    ∃ rest, distinctBy f (pre ++ a :: post) = distinctBy f pre ++ a :: rest :=
  distinctFrom_split f List.not_mem_nil h

/-- A list without repeated images is kept whole. -/
theorem distinctBy_eq_self {l : List α} (h : (l.map f).Nodup) : distinctBy f l = l := by
  refine (distinctBy_sublist f l).eq_of_length ?_
  rw [length_distinctBy, List.toFinset_card_of_nodup h, List.length_map]

end Collect

/-! ## The abstract question -/

/-- All sets of `lo` to `hi` identities whose amounts sum to `target` up to `tol`. -/
def sumSets (ids : Finset ι) (amount : ι → ℤ) (lo hi : Nat) (target tol : ℤ) : Finset (Finset ι) :=
  ids.powerset.filter fun s => lo ≤ s.card ∧ s.card ≤ hi ∧ |∑ i ∈ s, amount i - target| ≤ tol

theorem mem_sumSets {ids : Finset ι} {amount : ι → ℤ} {lo hi : Nat} {target tol : ℤ}
    {s : Finset ι} :
    s ∈ sumSets ids amount lo hi target tol ↔
      s ⊆ ids ∧ lo ≤ s.card ∧ s.card ≤ hi ∧ |∑ i ∈ s, amount i - target| ≤ tol := by
  simp [sumSets]

/-- The question only looks at the amounts of the identities on offer. -/
theorem sumSets_congr {ids : Finset ι} {amount amount' : ι → ℤ} {lo hi : Nat} {target tol : ℤ}
    (h : ∀ i ∈ ids, amount i = amount' i) :
    sumSets ids amount lo hi target tol = sumSets ids amount' lo hi target tol := by
  refine Finset.filter_congr fun s hs => ?_
  rw [Finset.sum_congr rfl fun i hi => h i (Finset.mem_powerset.mp hs hi)]

end Lib
