import Mathlib.Data.List.Dedup
import Mathlib.Data.List.DropRight

/-!
# `Lib.Lru` — a cache of the keys that are used last

A dictionary in the order of use. A key that is found is moved to the end (`get`), and so is one that is stored, where
the first keys are dropped if there are too many (`put`). The keys that it holds are the ones that are used last
(`Remembers`): of the keys that were found or stored, each at its last use, so many as there is room for.
-/

namespace Lib

/-- A dictionary in the order of use, the least recent first. -/
structure Lru (κ ν : Type) where
  items : List (κ × ν) := []
  nodup : (items.map Prod.fst).Nodup := by exact List.nodup_nil

namespace Lru

variable {κ ν : Type} [DecidableEq κ]

def keys (cache : Lru κ ν) : List κ := cache.items.map Prod.fst

/-- The items without a key. -/
def without (k : κ) (items : List (κ × ν)) : List (κ × ν) := items.filter fun p => p.1 ≠ k

theorem map_fst_without (k : κ) (items : List (κ × ν)) :
    (without k items).map Prod.fst = (items.map Prod.fst).filter (· ≠ k) := by
  rw [without, List.filter_map]
  rfl

/-- A key at the end, with its value. -/
def toEnd (cache : Lru κ ν) (k : κ) (v : ν) : Lru κ ν where
  items := without k cache.items ++ [(k, v)]
  nodup := by
    rw [List.map_append, map_fst_without]
    refine List.Nodup.append (cache.nodup.filter _) (List.nodup_singleton _) (List.disjoint_singleton.mpr ?_)
    exact fun hmem => of_decide_eq_true (List.mem_filter.mp hmem).2 rfl

/-- A value, and the cache in which its key is used last. -/
def get (cache : Lru κ ν) (k : κ) : Option ν × Lru κ ν :=
  match cache.items.lookup k with
  | some v => (some v, cache.toEnd k v)
  | none => (none, cache)

/-- The cache with a value; the first keys are dropped while there are more than `room`. -/
def put (room : Nat) (cache : Lru κ ν) (k : κ) (v : ν) : Lru κ ν where
  items := (cache.toEnd k v).items.rtake room
  nodup := by
    rw [List.rtake, List.map_drop]
    exact (cache.toEnd k v).nodup.sublist (List.drop_sublist _ _)

/-! ## What is found -/

theorem mem_toEnd {cache : Lru κ ν} {k : κ} {v : ν} {p : κ × ν} (h : p ∈ (cache.toEnd k v).items) :
    p ∈ cache.items ∨ p = (k, v) := by
  rcases List.mem_append.mp h with hmem | hmem
  · exact Or.inl (List.mem_filter.mp hmem).1
  · exact Or.inr (List.mem_singleton.mp hmem)

theorem mem_put {room : Nat} {cache : Lru κ ν} {k : κ} {v : ν} {p : κ × ν} (h : p ∈ (cache.put room k v).items) :
    p ∈ cache.items ∨ p = (k, v) := mem_toEnd (List.mem_of_mem_drop h)

theorem get_some {cache cache' : Lru κ ν} {k : κ} {v : ν} (h : cache.get k = (some v, cache')) :
    (k, v) ∈ cache.items ∧ cache' = cache.toEnd k v := by
  unfold get at h
  split at h
  · rename_i v' hlookup
    obtain ⟨hv, rfl⟩ := Prod.mk.inj h
    obtain rfl := Option.some.inj hv
    obtain ⟨items, items', hitems, -⟩ := List.lookup_eq_some_iff.mp hlookup
    exact ⟨hitems ▸ List.mem_append_right _ List.mem_cons_self, rfl⟩
  · cases (Prod.mk.inj h).1

theorem get_none {cache cache' : Lru κ ν} {k : κ} (h : cache.get k = (none, cache')) :
    k ∉ cache.keys ∧ cache' = cache := by
  unfold get at h
  split at h
  · cases (Prod.mk.inj h).1
  · rename_i hlookup
    refine ⟨fun hmem => ?_, (Prod.mk.inj h).2.symm⟩
    obtain ⟨⟨k', v⟩, hitem, rfl⟩ := List.mem_map.mp hmem
    exact absurd (List.lookup_eq_none_iff.mp hlookup _ hitem) (by simp)

/-! ## What is kept -/

theorem dedup_snoc (uses : List κ) (k : κ) : (uses ++ [k]).dedup = uses.dedup.filter (· ≠ k) ++ [k] := by
  induction uses with
  | nil => rfl
  | cons u uses ih =>
      by_cases hu : u ∈ uses
      · rw [List.cons_append, List.dedup_cons_of_mem (List.mem_append_left _ hu), List.dedup_cons_of_mem hu, ih]
      · rw [List.dedup_cons_of_notMem hu, List.cons_append]
        by_cases hk : u = k
        · subst hk
          have hin : u ∈ uses ++ [u] := List.mem_append_right _ (List.mem_singleton_self _)
          rw [List.dedup_cons_of_mem hin, ih, List.filter_cons_of_neg (by simp)]
        · have hnotin : u ∉ uses ++ [k] := by simp [hu, hk]
          rw [List.dedup_cons_of_notMem hnotin, ih, List.filter_cons_of_pos (by simpa using hk), List.cons_append]

omit [DecidableEq κ] in
/-- The last of a list are the last of what ends it, if that is long enough. -/
theorem rtake_append_of_le {n : Nat} {before after : List κ} (h : n ≤ after.length) :
    (before ++ after).rtake n = after.rtake n := by
  rw [List.rtake, List.rtake, List.length_append, List.drop_append, List.drop_eq_nil_of_le (by omega), List.nil_append]
  congr 1
  omega

/-- Taking the last of a list, where one of its elements is moved to the end. -/
theorem rtake_filter_rtake {l : List κ} (hnodup : l.Nodup) (k : κ) (room : Nat) :
    ((l.rtake room).filter (· ≠ k) ++ [k]).rtake room = (l.filter (· ≠ k) ++ [k]).rtake room := by
  rcases Nat.lt_or_ge l.length room with hshort | hlong
  · have hall : l.rtake room = l := by
      rw [List.rtake, Nat.sub_eq_zero_of_le hshort.le, List.drop_zero]
    rw [hall]
  · set kept := l.rtake room with hkept
    have hlength : kept.length = room := by
      rw [hkept, List.rtake, List.length_drop]
      omega
    have hsplit : l.take (l.length - room) ++ kept = l := List.take_append_drop _ _
    have henough : room ≤ (kept.filter (· ≠ k) ++ [k]).length := by
      have hcount : kept.count k ≤ 1 := List.nodup_iff_count_le_one.mp (hnodup.sublist (List.drop_sublist _ _)) k
      have hfilter : kept.length = kept.countP (· = k) + (kept.filter (· ≠ k)).length := by
        rw [← List.countP_eq_length_filter]
        simpa using List.length_eq_countP_add_countP (fun x => decide (x = k)) (l := kept)
      have hsame : kept.countP (· = k) = kept.count k := List.countP_congr fun x _ => by simp
      rw [List.length_append, List.length_singleton]
      omega
    conv_rhs => rw [← hsplit, List.filter_append, List.append_assoc]
    exact (rtake_append_of_le henough).symm

/-- The cache holds the keys that are used last. -/
def Remembers (room : Nat) (cache : Lru κ ν) (uses : List κ) : Prop := cache.keys = uses.dedup.rtake room

theorem Remembers.length_le {room : Nat} {cache : Lru κ ν} {uses : List κ} (h : cache.Remembers room uses) :
    cache.items.length ≤ room := by
  have hlength : cache.items.length = cache.keys.length := (List.length_map _).symm
  rw [hlength, h, List.rtake, List.length_drop]
  omega

theorem Remembers.empty (room : Nat) : Remembers room ({} : Lru κ ν) [] := by
  show [] = List.rtake [] room
  simp

theorem keys_toEnd (cache : Lru κ ν) (k : κ) (v : ν) : (cache.toEnd k v).keys = cache.keys.filter (· ≠ k) ++ [k] := by
  rw [keys, toEnd, List.map_append, map_fst_without]
  rfl

theorem Remembers.put {room : Nat} {cache : Lru κ ν} {uses : List κ} (h : cache.Remembers room uses) (k : κ) (v : ν) :
    (cache.put room k v).Remembers room (uses ++ [k]) := by
  have hkeys : (cache.put room k v).keys = (cache.toEnd k v).keys.rtake room := by
    simp only [keys, Lru.put, List.rtake, List.map_drop, List.length_map]
  rw [Remembers, hkeys, keys_toEnd, h, dedup_snoc]
  exact rtake_filter_rtake (List.nodup_dedup _) k room

theorem Remembers.hit {room : Nat} {cache : Lru κ ν} {uses : List κ} (h : cache.Remembers room uses) {k : κ}
    (hk : k ∈ cache.keys) (v : ν) : (cache.toEnd k v).Remembers room (uses ++ [k]) := by
  have hput := h.put k v
  have hroom : (cache.toEnd k v).items.length ≤ room := by
    refine le_trans ?_ h.length_le
    rw [toEnd, List.length_append, List.length_singleton]
    obtain ⟨p, hp, rfl⟩ := List.mem_map.mp hk
    exact List.length_filter_lt_length_iff_exists.mpr ⟨p, hp, by simp⟩
  have hall : (cache.put room k v).items = (cache.toEnd k v).items := by
    show (cache.toEnd k v).items.rtake room = _
    rw [List.rtake, Nat.sub_eq_zero_of_le hroom, List.drop_zero]
  rw [Remembers, ← hput, keys, keys, hall]

end Lru

end Lib
