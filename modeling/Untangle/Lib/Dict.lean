import Mathlib.Data.List.Perm.Lattice
import Mathlib.Data.List.Dedup
import Mathlib.Data.List.Induction
import Mathlib.Data.List.Nodup
import Mathlib.Algebra.BigOperators.Group.List.Basic
import Mathlib.Algebra.Ring.Int.Defs
import Mathlib.Algebra.Order.Group.Int

/-!
# `Lib.Dict` — insertion-ordered dictionaries

A dictionary in the sense of the scripting languages: a finite map that remembers the order in which its
keys were first written, and in which rewriting a key keeps the key's place. Distinctness of the keys is a
field of the structure, so a lookup has at most one answer and iteration meets every key once.

Everything a loop writes into a dictionary goes through one operation, `Dict.upsert` (insert-or-update), and
every dictionary a loop builds is a `Dict.gather`. The two facts that clients need about such a loop are
`get?_gather` (what is stored under a key is a fold over the rows of that key alone) and `keys_gather_perm`
(reordering the rows reorders the keys and does nothing else to them).
-/

namespace Lib

/-- An insertion-ordered dictionary with distinct keys. -/
structure Dict (κ ν : Type) where
  items : List (κ × ν)
  nodup : (items.map Prod.fst).Nodup

namespace Dict

variable {κ ν ρ : Type}

/-- The keys, in the order in which they were first written. -/
def keys (d : Dict κ ν) : List κ := d.items.map Prod.fst

def empty : Dict κ ν := ⟨[], List.nodup_nil⟩

theorem nodup_keys (d : Dict κ ν) : d.keys.Nodup := d.nodup

@[simp] theorem items_empty : (empty : Dict κ ν).items = [] := rfl

@[simp] theorem keys_empty : (empty : Dict κ ν).keys = [] := rfl

variable [DecidableEq κ]

def get? (d : Dict κ ν) (k : κ) : Option ν := d.items.lookup k

/-! ## Lookup and membership -/

omit [DecidableEq κ] in
theorem mem_keys_of_mem {d : Dict κ ν} {k : κ} {v : ν} (h : (k, v) ∈ d.items) : k ∈ d.keys :=
  List.mem_map.mpr ⟨(k, v), h, rfl⟩

theorem lookup_eq_some_iff {l : List (κ × ν)} (hnd : (l.map Prod.fst).Nodup) {k : κ} {v : ν} :
    l.lookup k = some v ↔ (k, v) ∈ l := by
  induction l with
  | nil => simp
  | cons p l ih =>
      obtain ⟨k', v'⟩ := p
      simp only [List.map_cons, List.nodup_cons] at hnd
      by_cases hk : k = k'
      · subst hk
        simp only [List.lookup_cons_self, Option.some.injEq, List.mem_cons, Prod.mk.injEq, true_and]
        constructor
        · intro h
          exact Or.inl h.symm
        · rintro (h | h)
          · exact h.symm
          · exact absurd (List.mem_map.mpr ⟨(k, v), h, rfl⟩) hnd.1
      · have hbeq : (k == k') = false := by simpa using hk
        rw [List.lookup_cons, hbeq, ih hnd.2]
        simp [hk]

theorem get?_eq_some {d : Dict κ ν} {k : κ} {v : ν} : d.get? k = some v ↔ (k, v) ∈ d.items :=
  lookup_eq_some_iff d.nodup

theorem get?_of_mem {d : Dict κ ν} {k : κ} {v : ν} (h : (k, v) ∈ d.items) : d.get? k = some v :=
  get?_eq_some.mpr h

theorem exists_get?_of_mem_keys {d : Dict κ ν} {k : κ} (h : k ∈ d.keys) : ∃ v, d.get? k = some v := by
  obtain ⟨⟨k', v⟩, hmem, rfl⟩ := List.mem_map.mp h
  exact ⟨v, get?_of_mem hmem⟩

theorem mem_keys_of_get? {d : Dict κ ν} {k : κ} {v : ν} (h : d.get? k = some v) : k ∈ d.keys :=
  mem_keys_of_mem (get?_eq_some.mp h)

theorem mem_keys_iff {d : Dict κ ν} {k : κ} : k ∈ d.keys ↔ ∃ v, d.get? k = some v :=
  ⟨exists_get?_of_mem_keys, fun ⟨_, h⟩ => mem_keys_of_get? h⟩

theorem get?_eq_none {d : Dict κ ν} {k : κ} : d.get? k = none ↔ k ∉ d.keys := by
  rw [mem_keys_iff]
  cases d.get? k <;> simp

@[simp] theorem get?_empty (k : κ) : (empty : Dict κ ν).get? k = none := rfl

/-- The entries that pass a test. -/
def filter (d : Dict κ ν) (test : κ → ν → Bool) : Dict κ ν where
  items := d.items.filter fun entry => test entry.1 entry.2
  nodup := d.nodup.sublist (List.filter_sublist.map _)

theorem get?_filter (d : Dict κ ν) (test : κ → ν → Bool) (k : κ) :
    (d.filter test).get? k = (d.get? k).filter (test k) := by
  refine Option.ext fun v => ?_
  rw [Option.filter_eq_some_iff, get?_eq_some, get?_eq_some]
  exact List.mem_filter

/-! ## Insert-or-update

`f` receives what the key holds (`none` for a new key) and returns what it holds afterwards. -/

def upsertItems (k : κ) (f : Option ν → ν) : List (κ × ν) → List (κ × ν)
  | [] => [(k, f none)]
  | (k', v) :: rest => if k' = k then (k', f (some v)) :: rest else (k', v) :: upsertItems k f rest

theorem map_fst_upsertItems (k : κ) (f : Option ν → ν) (l : List (κ × ν)) :
    (upsertItems k f l).map Prod.fst =
      if k ∈ l.map Prod.fst then l.map Prod.fst else l.map Prod.fst ++ [k] := by
  induction l with
  | nil => simp [upsertItems]
  | cons p l ih =>
      obtain ⟨k', v⟩ := p
      unfold upsertItems
      by_cases hk : k' = k
      · subst hk
        simp
      · have hk' : k ≠ k' := fun h => hk h.symm
        simp only [if_neg hk, List.map_cons, ih, List.mem_cons, hk', false_or]
        split <;> rfl

theorem nodup_upsertItems {k : κ} {f : Option ν → ν} {l : List (κ × ν)}
    (h : (l.map Prod.fst).Nodup) : ((upsertItems k f l).map Prod.fst).Nodup := by
  rw [map_fst_upsertItems]
  split
  · exact h
  · rename_i hk
    exact List.nodup_append.mpr ⟨h, List.nodup_singleton k, by
      intro a ha b hb hab
      rw [List.mem_singleton] at hb
      exact hk (hb ▸ hab ▸ ha)⟩

theorem lookup_upsertItems (k k' : κ) (f : Option ν → ν) (l : List (κ × ν)) :
    (upsertItems k f l).lookup k' = if k' = k then some (f (l.lookup k)) else l.lookup k' := by
  induction l with
  | nil =>
      by_cases h : k' = k
      · subst h
        simp [upsertItems]
      · have hbeq : (k' == k) = false := by simpa using h
        simp [upsertItems, List.lookup_cons, hbeq, h]
  | cons p l ih =>
      obtain ⟨j, v⟩ := p
      unfold upsertItems
      by_cases hj : j = k
      · subst hj
        by_cases h : k' = j
        · subst h
          simp
        · have hbeq : (k' == j) = false := by simpa using h
          simp [List.lookup_cons, hbeq, h]
      · rw [if_neg hj]
        have hkj : (k == j) = false := by simpa using fun h : k = j => hj h.symm
        by_cases h : k' = j
        · subst h
          simp [hj]
        · have hbeq : (k' == j) = false := by simpa using h
          rw [List.lookup_cons, hbeq, ih, List.lookup_cons, hkj, List.lookup_cons, hbeq]

/-- Update the value at `k` in place, or append `k` at the end. -/
def upsert (d : Dict κ ν) (k : κ) (f : Option ν → ν) : Dict κ ν :=
  ⟨upsertItems k f d.items, nodup_upsertItems d.nodup⟩

/-- `d[k] = v`. -/
def insert (d : Dict κ ν) (k : κ) (v : ν) : Dict κ ν := d.upsert k fun _ => v

theorem get?_upsert (d : Dict κ ν) (k k' : κ) (f : Option ν → ν) :
    (d.upsert k f).get? k' = if k' = k then some (f (d.get? k)) else d.get? k' :=
  lookup_upsertItems k k' f d.items

theorem get?_insert (d : Dict κ ν) (k k' : κ) (v : ν) :
    (d.insert k v).get? k' = if k' = k then some v else d.get? k' :=
  get?_upsert d k k' _

theorem mem_keys_upsert {d : Dict κ ν} {k k' : κ} {f : Option ν → ν} :
    k' ∈ (d.upsert k f).keys ↔ k' = k ∨ k' ∈ d.keys := by
  unfold keys upsert
  rw [map_fst_upsertItems]
  split
  · rename_i h
    exact ⟨Or.inr, fun hk => hk.elim (fun e => e ▸ h) id⟩
  · simp [or_comm]

theorem mem_keys_insert {d : Dict κ ν} {k k' : κ} {v : ν} :
    k' ∈ (d.insert k v).keys ↔ k' = k ∨ k' ∈ d.keys := mem_keys_upsert

/-! ## Counting entries -/

theorem countP_upsertItems (P : κ × ν → Bool) (k : κ) (f : Option ν → ν) (l : List (κ × ν)) :
    (upsertItems k f l).countP P + ((l.lookup k).elim 0 fun v => (P (k, v)).toNat) =
      l.countP P + (P (k, f (l.lookup k))).toNat := by
  induction l with
  | nil =>
      rw [upsertItems, List.countP_singleton, List.lookup_nil]
      cases P (k, f none) <;> rfl
  | cons p l ih =>
      obtain ⟨k', v⟩ := p
      unfold upsertItems
      by_cases hk : k' = k
      · subst hk
        rw [if_pos rfl, List.lookup_cons_self, List.countP_cons, List.countP_cons, Option.elim_some]
        cases P (k', f (some v)) <;> cases P (k', v) <;> simp
      · have hne : (k == k') = false := by simpa using fun h : k = k' => hk h.symm
        rw [if_neg hk, List.lookup_cons, hne, List.countP_cons, List.countP_cons, Nat.add_right_comm, ih,
          Nat.add_right_comm]

/-- How an insertion changes the number of entries of a kind. -/
theorem countP_insert (P : κ × ν → Bool) (d : Dict κ ν) (k : κ) (v : ν) :
    (d.insert k v).items.countP P + ((d.get? k).elim 0 fun v => (P (k, v)).toNat) =
      d.items.countP P + (P (k, v)).toNat := countP_upsertItems P k _ d.items

/-! ## Dictionaries built by a loop over rows -/

/-- The loop `for r in rows: d[key r] = step r (d.get (key r))`, skipping the rows without a key. -/
def gather (key : ρ → Option κ) (step : ρ → Option ν → ν) (rows : List ρ) : Dict κ ν :=
  rows.foldl (fun d r =>
    match key r with
    | none => d
    | some k => d.upsert k (step r)) empty

section Gather

variable (key : ρ → Option κ) (step : ρ → Option ν → ν)

theorem gather_append_singleton (rows : List ρ) (r : ρ) :
    gather key step (rows ++ [r]) =
      match key r with
      | none => gather key step rows
      | some k => (gather key step rows).upsert k (step r) := by
  simp [gather]

/-- **What the loop stores under `k`** depends on the rows of `k` only. -/
theorem get?_gather (rows : List ρ) (k : κ) :
    (gather key step rows).get? k =
      (rows.filter fun r => key r = some k).foldl (fun o r => some (step r o)) none := by
  induction rows using List.reverseRecOn with
  | nil => rfl
  | append_singleton rows r ih =>
      rw [gather_append_singleton, List.filter_append, List.foldl_append, ← ih]
      cases hr : key r with
      | none => simp [hr]
      | some k' =>
          by_cases hk : k = k'
          · subst hk
            simp [hr, get?_upsert]
          · have hk' : k' ≠ k := fun h => hk h.symm
            simp [hr, get?_upsert, hk, hk']

/-- A loop that appends to lists groups the rows by key, in row order. -/
theorem getD_get?_gather_append {β : Type} (f : ρ → β) (rows : List ρ) (k : κ) :
    ((gather key (fun r (o : Option (List β)) => o.getD [] ++ [f r]) rows).get? k).getD []
      = (rows.filter fun r => key r = some k).map f := by
  have hfold : ∀ (l : List ρ) (o : Option (List β)),
      (l.foldl (fun o r => some (o.getD [] ++ [f r])) o).getD [] = o.getD [] ++ l.map f := by
    intro l
    induction l with
    | nil => intro o; simp
    | cons r l ih =>
        intro o
        rw [List.foldl_cons, ih]
        simp
  rw [get?_gather, hfold]
  rfl

/-- A loop that adds up a number per key. -/
theorem get?_gather_sum {M : Type} [AddMonoid M] (f : ρ → M) (rows : List ρ) (k : κ) :
    (gather key (fun r (o : Option M) => o.getD 0 + f r) rows).get? k =
      if ∃ r ∈ rows, key r = some k then some ((rows.filter fun r => key r = some k).map f).sum
      else none := by
  have hfold : ∀ (l : List ρ) (n : M),
      l.foldl (fun o r => some (o.getD 0 + f r)) (some n) = some (n + (l.map f).sum) := by
    intro l
    induction l with
    | nil => intro n; simp
    | cons r l ih =>
        intro n
        rw [List.foldl_cons, Option.getD_some, ih, List.map_cons, List.sum_cons, add_assoc]
  rw [get?_gather]
  by_cases h : ∃ r ∈ rows, key r = some k
  · rw [if_pos h]
    obtain ⟨r, hr, hk⟩ := h
    have hmem : r ∈ rows.filter fun r => key r = some k := List.mem_filter.mpr ⟨hr, by simpa using hk⟩
    cases hl : rows.filter fun r => key r = some k with
    | nil => rw [hl] at hmem; exact absurd hmem List.not_mem_nil
    | cons a l =>
        rw [List.foldl_cons, Option.getD_none, hfold, List.map_cons, List.sum_cons, zero_add]
  · rw [if_neg h]
    have hnil : (rows.filter fun r => key r = some k) = [] := by
      rw [List.filter_eq_nil_iff]
      intro r hr hk
      exact h ⟨r, hr, by simpa using hk⟩
    rw [hnil, List.foldl_nil]

/-- What an update adds to the sum of the values. -/
theorem sum_upsertItems {M : Type} [AddCommMonoid M] (k : κ) (x : M) (l : List (κ × M)) :
    ((upsertItems k (fun o => o.getD 0 + x) l).map Prod.snd).sum = (l.map Prod.snd).sum + x := by
  induction l with
  | nil => simp [upsertItems]
  | cons p l ih =>
      obtain ⟨k', y⟩ := p
      unfold upsertItems
      split
      · simp [add_right_comm]
      · simp [ih, add_assoc]

/-- What an update adds to the parts of the values. -/
theorem flatMap_upsertItems_perm {β : Type} (part : ν → List β) (k : κ) (f : Option ν → ν) (xs : List β)
    (hf : ∀ o, part (f o) = (o.map part).getD [] ++ xs) (l : List (κ × ν)) :
    ((upsertItems k f l).flatMap fun p => part p.2).Perm ((l.flatMap fun p => part p.2) ++ xs) := by
  induction l with
  | nil => simp [upsertItems, hf]
  | cons p l ih =>
      obtain ⟨k', v⟩ := p
      unfold upsertItems
      split
      · have hpart : part (f (some v)) = part v ++ xs := hf (some v)
        rw [List.flatMap_cons, List.flatMap_cons]
        dsimp only
        rw [hpart, List.append_assoc, List.append_assoc]
        exact List.perm_append_comm.append_left (part v)
      · rw [List.flatMap_cons, List.flatMap_cons, List.append_assoc]
        exact ih.append_left (part v)

/-- **Grouping loses nothing**: the parts of the groups are the parts of the rows that have a key. -/
theorem flatMap_gather_perm {β : Type} (part : ν → List β) (f : ρ → List β)
    (hstep : ∀ r o, part (step r o) = (o.map part).getD [] ++ f r) (rows : List ρ) :
    ((gather key step rows).items.flatMap fun p => part p.2).Perm
      ((rows.filter fun r => (key r).isSome).flatMap f) := by
  induction rows using List.reverseRecOn with
  | nil => exact List.Perm.refl _
  | append_singleton rows r ih =>
      rw [gather_append_singleton, List.filter_append, List.flatMap_append]
      cases hr : key r with
      | none => simpa [hr] using ih
      | some k =>
          have hrow : ([r].filter fun r => (key r).isSome).flatMap f = f r := by simp [hr]
          rw [hrow]
          exact (flatMap_upsertItems_perm part k (step r) (f r) (hstep r) _).trans (ih.append_right (f r))

/-- **Adding up per key loses nothing**: the values add up to the sum over the rows. -/
theorem sum_gather {M : Type} [AddCommMonoid M] (key : ρ → κ) (f : ρ → M) (rows : List ρ) :
    ((gather (fun r => some (key r)) (fun r (o : Option M) => o.getD 0 + f r) rows).items.map Prod.snd).sum =
      (rows.map f).sum := by
  induction rows using List.reverseRecOn with
  | nil => rfl
  | append_singleton rows r ih =>
      rw [gather_append_singleton, List.map_append, List.sum_append, ← ih]
      show ((upsertItems _ _ _).map Prod.snd).sum = _
      rw [sum_upsertItems]
      simp

/-- A `setdefault` loop: the first row of a key decides. -/
theorem get?_gather_first {β : Type} (f : ρ → β) (rows : List ρ) (k : κ) :
    (gather key (fun r (o : Option β) => o.getD (f r)) rows).get? k =
      (rows.find? fun r => key r = some k).map f := by
  have hfold : ∀ (l : List ρ) (b : β),
      l.foldl (fun o r => some (o.getD (f r))) (some b) = some b := by
    intro l
    induction l with
    | nil => intro b; rfl
    | cons r l ih =>
        intro b
        rw [List.foldl_cons, Option.getD_some, ih]
  rw [get?_gather, ← List.head?_filter]
  cases rows.filter fun r => key r = some k with
  | nil => rfl
  | cons r l => rw [List.foldl_cons, Option.getD_none, hfold, List.head?_cons, Option.map_some]

/-- An overwriting loop: the last row of a key decides. -/
theorem get?_gather_last {β : Type} (f : ρ → β) (rows : List ρ) (k : κ) :
    (gather key (fun r (_ : Option β) => f r) rows).get? k =
      ((rows.filter fun r => key r = some k).getLast?).map f := by
  rw [get?_gather]
  induction (rows.filter fun r => key r = some k) using List.reverseRecOn with
  | nil => rfl
  | append_singleton l r _ => rw [List.foldl_append, List.getLast?_concat]; rfl

theorem mem_keys_gather {rows : List ρ} {k : κ} :
    k ∈ (gather key step rows).keys ↔ ∃ r ∈ rows, key r = some k := by
  induction rows using List.reverseRecOn with
  | nil => simp [gather]
  | append_singleton rows r ih =>
      rw [gather_append_singleton]
      cases hr : key r with
      | none =>
          simp only [ih, List.mem_append, List.mem_singleton]
          constructor
          · rintro ⟨s, hs, hk⟩
            exact ⟨s, Or.inl hs, hk⟩
          · rintro ⟨s, hs | rfl, hk⟩
            · exact ⟨s, hs, hk⟩
            · rw [hr] at hk
              exact absurd hk (by simp)
      | some k' =>
          simp only [mem_keys_upsert, ih, List.mem_append, List.mem_singleton]
          constructor
          · rintro (rfl | ⟨s, hs, hk⟩)
            · exact ⟨r, Or.inr rfl, hr⟩
            · exact ⟨s, Or.inl hs, hk⟩
          · rintro ⟨s, hs | rfl, hk⟩
            · exact Or.inr ⟨s, hs, hk⟩
            · rw [hr] at hk
              exact Or.inl (Option.some.inj hk).symm

/-- **Reordering the rows only reorders the keys.** -/
theorem keys_gather_perm {rows rows' : List ρ} (h : rows.Perm rows') :
    (gather key step rows).keys.Perm (gather key step rows').keys := by
  rw [List.perm_ext_iff_of_nodup (nodup_keys _) (nodup_keys _)]
  intro k
  rw [mem_keys_gather, mem_keys_gather]
  constructor
  · rintro ⟨r, hr, hk⟩
    exact ⟨r, h.mem_iff.mp hr, hk⟩
  · rintro ⟨r, hr, hk⟩
    exact ⟨r, h.mem_iff.mpr hr, hk⟩

/-- Where the rows of a key agree, it does not matter which of them decides. -/
theorem get?_gather_last_of_agree {β : Type} {f : ρ → β} {rows : List ρ}
    (hagree : ∀ r ∈ rows, ∀ r' ∈ rows, ∀ k, key r = some k → key r' = some k → f r = f r') {k : κ} {b : β} :
    (gather key (fun r (_ : Option β) => f r) rows).get? k = some b ↔
      ∃ r ∈ rows, key r = some k ∧ f r = b := by
  rw [get?_gather_last, Option.map_eq_some_iff]
  constructor
  · rintro ⟨r, hr, hb⟩
    obtain ⟨hmem, hk⟩ := List.mem_filter.mp (List.mem_of_getLast? hr)
    exact ⟨r, hmem, by simpa using hk, hb⟩
  · rintro ⟨r, hr, hk, hb⟩
    have hmem : r ∈ rows.filter fun r => key r = some k := List.mem_filter.mpr ⟨hr, by simpa using hk⟩
    have hr' := List.getLast?_eq_some_getLast (List.ne_nil_of_mem hmem)
    generalize List.getLast _ _ = r' at hr'
    obtain ⟨hmem', hk'⟩ := List.mem_filter.mp (List.mem_of_getLast? hr')
    exact ⟨r', hr', (hagree r' hmem' r hr k (by simpa using hk') hk).trans hb⟩

theorem get?_gather_first_of_agree {β : Type} {f : ρ → β} {rows : List ρ}
    (hagree : ∀ r ∈ rows, ∀ r' ∈ rows, ∀ k, key r = some k → key r' = some k → f r = f r') {k : κ} {b : β} :
    (gather key (fun r (o : Option β) => o.getD (f r)) rows).get? k = some b ↔
      ∃ r ∈ rows, key r = some k ∧ f r = b := by
  rw [get?_gather_first, Option.map_eq_some_iff]
  constructor
  · rintro ⟨r, hr, hb⟩
    have hk := List.find?_some hr
    exact ⟨r, List.mem_of_find?_eq_some hr, by simpa using hk, hb⟩
  · rintro ⟨r, hr, hk, hb⟩
    obtain ⟨r', hr'⟩ := Option.isSome_iff_exists.mp
      (List.find?_isSome.mpr ⟨r, hr, by simpa using hk⟩ : (rows.find? fun r => key r = some k).isSome)
    have hk' := List.find?_some hr'
    exact ⟨r', hr', (hagree r' (List.mem_of_find?_eq_some hr') r hr k (by simpa using hk') hk).trans hb⟩

/-- What every step establishes for its key holds of everything that the loop stores. -/
theorem forall_gather {P : κ → ν → Prop} {rows : List ρ}
    (h : ∀ r ∈ rows, ∀ k, key r = some k → ∀ o : Option ν, (∀ v, o = some v → P k v) → P k (step r o)) {k : κ} {v : ν}
    (hget : (gather key step rows).get? k = some v) : P k v := by
  induction rows using List.reverseRecOn generalizing k v with
  | nil => cases hget
  | append_singleton rows r ih =>
      have ih := fun {k v} => ih (k := k) (v := v) fun r' hr' => h r' (List.mem_append_left _ hr')
      rw [gather_append_singleton] at hget
      cases hr : key r with
      | none =>
          rw [hr] at hget
          exact ih hget
      | some k' =>
          rw [hr] at hget
          dsimp only at hget
          rw [get?_upsert] at hget
          split at hget
          · rename_i heq
            obtain rfl := Option.some.inj hget
            rw [heq]
            exact h r (List.mem_append_right _ (List.mem_singleton_self r)) k' hr _ fun v hv => ih hv
          · exact ih hget

/-- Rows that come in an order leave their keys in that order. -/
theorem pairwise_keys_gather {R : κ → κ → Prop} {rows : List ρ}
    (h : rows.Pairwise fun r r' => ∀ k k', key r = some k → key r' = some k' → R k k') :
    (gather key step rows).keys.Pairwise R := by
  induction rows using List.reverseRecOn with
  | nil => exact List.Pairwise.nil
  | append_singleton rows r ih =>
      rw [List.pairwise_append] at h
      obtain ⟨hrows, _, hlast⟩ := h
      rw [gather_append_singleton]
      cases hr : key r with
      | none => exact ih hrows
      | some k =>
          unfold keys upsert
          dsimp only
          rw [map_fst_upsertItems]
          split
          · exact ih hrows
          · refine List.pairwise_append.mpr ⟨ih hrows, List.pairwise_singleton _ _, ?_⟩
            intro k' hk' k'' hk''
            obtain ⟨r', hr', hkey⟩ := (mem_keys_gather key step).mp hk'
            rw [List.mem_singleton] at hk''
            exact hlast r' hr' r (List.mem_singleton.mpr rfl) k' k'' hkey (hk'' ▸ hr)

end Gather

/-- Two dictionaries with the same lookups have the same items, up to the order of the keys. -/
theorem items_perm {d d' : Dict κ ν} (h : ∀ k, d.get? k = d'.get? k) : d.items.Perm d'.items := by
  rw [List.perm_ext_iff_of_nodup (d.nodup.of_map _) (d'.nodup.of_map _)]
  intro p
  rw [← get?_eq_some (k := p.1) (v := p.2), ← get?_eq_some (k := p.1) (v := p.2), h]

theorem get?_of_items_perm {d d' : Dict κ ν} (h : d.items.Perm d'.items) (k : κ) :
    d.get? k = d'.get? k := by
  refine Option.ext fun v => ?_
  rw [get?_eq_some, get?_eq_some, h.mem_iff]

end Dict

end Lib
