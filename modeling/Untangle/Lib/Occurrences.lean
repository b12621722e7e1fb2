import Mathlib.Data.List.Nodup
import Mathlib.Data.List.Perm.Basic
import Mathlib.Logic.Function.Basic

/-!
# `Lib.Occurrences` — numbering repeated elements

An element that occurs once keeps its name, and the occurrences of a repeated one are numbered from one. The names are
distinct (`nodup_labels`), and reordering the elements reorders them (`labels_perm`).
-/

namespace Lib

section Occurrences

variable {κ : Type} [DecidableEq κ]

/-- The elements with their names; `used` counts the occurrences that are numbered already. -/
def number (repeated : κ → Bool) : (κ → Nat) → List κ → List (κ × Option Nat)
  | _, [] => []
  | used, k :: ks =>
    if repeated k then (k, some (used k + 1)) :: number repeated (Function.update used k (used k + 1)) ks
    else (k, none) :: number repeated used ks

/-- The names of the elements of a list. -/
def labels (ks : List κ) : List (κ × Option Nat) := number (fun k => 1 < ks.count k) (fun _ => 0) ks

variable {repeated : κ → Bool} {used : κ → Nat} {ks : List κ}

@[simp] theorem map_fst_number : (number repeated used ks).map Prod.fst = ks := by
  induction ks generalizing used with
  | nil => rfl
  | cons k ks ih =>
      unfold number
      split <;> rw [List.map_cons, ih]

/-- The names of a repeated element are the numbers after those that are used. -/
theorem mem_number_some {k : κ} {n : Nat} :
    (k, some n) ∈ number repeated used ks ↔ repeated k = true ∧ used k < n ∧ n ≤ used k + ks.count k := by
  induction ks generalizing used with
  | nil =>
      rw [List.count_nil]
      constructor
      · intro h
        exact absurd h List.not_mem_nil
      · rintro ⟨_, hlow, hhigh⟩
        omega
  | cons k' ks ih =>
      unfold number
      by_cases hrepeated : repeated k' = true
      · rw [if_pos hrepeated, List.mem_cons, ih]
        by_cases hk : k = k'
        · subst hk
          rw [Function.update_self, List.count_cons_self, Prod.mk.injEq, Option.some.injEq]
          constructor
          · rintro (⟨_, rfl⟩ | ⟨_, hlow, hhigh⟩)
            · exact ⟨hrepeated, by omega, by omega⟩
            · exact ⟨hrepeated, by omega, by omega⟩
          · rintro ⟨_, hlow, hhigh⟩
            by_cases hn : n = used k + 1
            · exact Or.inl ⟨rfl, hn⟩
            · exact Or.inr ⟨hrepeated, by omega, by omega⟩
        · rw [Function.update_of_ne hk, List.count_cons_of_ne (Ne.symm hk), or_iff_right]
          exact fun h => hk (Prod.mk.inj h).1
      · rw [if_neg hrepeated, List.mem_cons, ih, or_iff_right (by simp)]
        by_cases hk : k = k'
        · subst hk
          exact iff_of_false (fun h => hrepeated h.1) fun h => hrepeated h.1
        · rw [List.count_cons_of_ne (Ne.symm hk)]

/-- The name of an element that is not repeated is the element. -/
theorem mem_number_none {k : κ} : (k, none) ∈ number repeated used ks ↔ repeated k = false ∧ k ∈ ks := by
  induction ks generalizing used with
  | nil => exact iff_of_false List.not_mem_nil fun h => absurd h.2 List.not_mem_nil
  | cons k' ks ih =>
      unfold number
      by_cases hrepeated : repeated k' = true
      · rw [if_pos hrepeated, List.mem_cons, ih, or_iff_right (by simp), List.mem_cons]
        by_cases hk : k = k'
        · subst hk
          exact iff_of_false (fun h => absurd (hrepeated.symm.trans h.1) (by decide)) fun h =>
            absurd (hrepeated.symm.trans h.1) (by decide)
        · rw [or_iff_right hk]
      · rw [if_neg hrepeated, List.mem_cons, ih, List.mem_cons, Prod.mk.injEq]
        constructor
        · rintro (⟨rfl, _⟩ | ⟨hk, hmem⟩)
          · exact ⟨Bool.eq_false_iff.mpr hrepeated, Or.inl rfl⟩
          · exact ⟨hk, Or.inr hmem⟩
        · rintro ⟨hk, rfl | hmem⟩
          · exact Or.inl ⟨rfl, rfl⟩
          · exact Or.inr ⟨hk, hmem⟩

/-- Names are distinct, if every element that is not numbered occurs once. -/
theorem nodup_number (honce : ∀ k, repeated k = false → ks.count k ≤ 1) : (number repeated used ks).Nodup := by
  induction ks generalizing used with
  | nil => exact List.nodup_nil
  | cons k ks ih =>
      have htail : ∀ k', repeated k' = false → ks.count k' ≤ 1 := fun k' hk' =>
        Nat.le_trans (List.Sublist.count_le k' (List.sublist_cons_self k ks)) (honce k' hk')
      unfold number
      by_cases hrepeated : repeated k = true
      · rw [if_pos hrepeated, List.nodup_cons, mem_number_some, Function.update_self]
        exact ⟨fun h => absurd h.2.1 (Nat.lt_irrefl _), ih htail⟩
      · rw [if_neg hrepeated, List.nodup_cons, mem_number_none]
        refine ⟨fun h => ?_, ih htail⟩
        have hcount := honce k h.1
        rw [List.count_cons_self] at hcount
        have hpos := List.count_pos_iff.mpr h.2
        omega

/-- **The names of the elements of a list are distinct.** -/
theorem nodup_labels (ks : List κ) : (labels ks).Nodup :=
  nodup_number fun _ hk => Nat.le_of_not_lt (of_decide_eq_false hk)

/-- **Reordering the elements reorders their names.** -/
theorem labels_perm {ks' : List κ} (h : ks.Perm ks') : (labels ks).Perm (labels ks') := by
  refine (List.perm_ext_iff_of_nodup (nodup_labels ks) (nodup_labels ks')).mpr ?_
  rintro ⟨k, _ | n⟩
  · unfold labels
    rw [mem_number_none, mem_number_none, h.mem_iff, h.count_eq k]
  · unfold labels
    rw [mem_number_some, mem_number_some, h.count_eq k]

end Occurrences

end Lib
