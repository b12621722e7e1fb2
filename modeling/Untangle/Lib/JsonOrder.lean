import Mathlib.Data.List.Sort
import Mathlib.Data.Prod.Lex
import Mathlib.Algebra.Order.Ring.Unbundled.Rat
import Mathlib.Data.String.Basic
import Untangle.Lib.Json

/-!
# `Lib.JsonOrder` — comparing and sorting untyped values

Two values of a dynamically typed program may not compare: `<` on a text and a number is an error. Lists compare by
the first items that differ, so that two lists of different types can be comparable. A stable sort by such a comparison
is defined when all its elements are comparable with each other. A NaN, which no sort can place, compares with nothing.

A client uses `sorted_map`: a renaming that the comparison does not notice goes through the sort.
-/

namespace Lib

namespace Json

/-- A number on the extended line. -/
def rank? : Json → Option (ℤ ×ₗ ℚ)
  | .inf negative => some (toLex (if negative then -1 else 1, 0))
  | v => v.number?.map fun q => toLex (0, q)

/-- `<` on two values that are not both lists, `none` when it is an error. -/
def ltLeaf? : Json → Json → Option Bool
  | .str s, .str t => some (s < t)
  | v, w =>
    match v.rank?, w.rank? with
    | some m, some n => some (m < n)
    | _, _ => none

mutual

/-- `v < w`. -/
def lt? : Json → Json → Option Bool
  | .arr xs, .arr ys => ltItems? xs ys
  | v, w => ltLeaf? v w

def ltItems? : List Json → List Json → Option Bool
  | _, [] => some false
  | [], _ :: _ => some true
  | x :: xs, y :: ys => if x.same y then ltItems? xs ys else lt? x y

end

/-- The values that can stand in a set. -/
def hashable : Json → Bool
  | .arr _ => false
  | .obj _ => false
  | .dict _ => false
  | _ => true

attribute [local simp] same sameLeaf lt? ltItems? ltLeaf? rank? number?

theorem ltItems?_cons (x y : Json) (xs ys : List Json) :
    ltItems? (x :: xs) (y :: ys) = if x.same y then ltItems? xs ys else lt? x y := by
  rw [ltItems?]

@[simp] theorem same_str (s t : String) : same (.str s) (.str t) = decide (s = t) := by
  simp

@[simp] theorem lt?_str (s t : String) : lt? (.str s) (.str t) = some (decide (s < t)) := by
  simp

@[simp] theorem lt?_float (q r : ℚ) : (lt? (.float q) (.float r)).isSome = true := by
  simp

@[simp] theorem lt?_int (i j : ℤ) : (lt? (.int i) (.int j)).isSome = true := by
  simp

/-- Lists compare as soon as their items do. -/
theorem isSome_ltItems?_cons {x y : Json} {xs ys : List Json} (h : (lt? x y).isSome = true)
    (hs : (ltItems? xs ys).isSome = true) : (ltItems? (x :: xs) (y :: ys)).isSome = true := by
  rw [ltItems?_cons]
  split
  · exact hs
  · exact h

/-- A text is nothing but a text, and compares with nothing else. -/
theorem same_str_left {v : Json} (h : v.asStr? = none) (s : String) : same (.str s) v = false := by
  cases v with
  | str t => cases h
  | _ => simp

theorem same_str_right {v : Json} (h : v.asStr? = none) (s : String) : same v (.str s) = false := by
  cases v with
  | str t => cases h
  | _ => simp

theorem lt?_str_left {v : Json} (h : v.asStr? = none) (s : String) : lt? (.str s) v = none := by
  cases v with
  | str t => cases h
  | _ => simp

theorem lt?_str_right {v : Json} (h : v.asStr? = none) (s : String) : lt? v (.str s) = none := by
  cases v with
  | str t => cases h
  | _ => simp

end Json

/-! ## Sorting -/

section Sorted

variable {α β : Type}

/-- Any two elements compare. -/
def Comparable (lt? : α → α → Option Bool) (l : List α) : Prop :=
  l.Pairwise fun a b => (lt? a b).isSome ∧ (lt? b a).isSome

instance (lt? : α → α → Option Bool) (l : List α) : Decidable (Comparable lt? l) :=
  inferInstanceAs (Decidable (l.Pairwise _))

/-- The stable sort by `<`, `none` when a comparison is an error. -/
def sorted (lt? : α → α → Option Bool) (l : List α) : Option (List α) :=
  if Comparable lt? l then some (l.insertionSort fun a b => lt? b a ≠ some true) else none

theorem sorted_eq_some {lt? : α → α → Option Bool} {l l' : List α} :
    sorted lt? l = some l' ↔ Comparable lt? l ∧ l.insertionSort (fun a b => lt? b a ≠ some true) = l' := by
  unfold sorted
  split
  · rename_i h
    simp [h]
  · rename_i h
    simp [h]

theorem isSome_sorted {lt? : α → α → Option Bool} {l : List α} (h : ∀ a ∈ l, ∀ b ∈ l, (lt? a b).isSome = true) :
    ∃ l', sorted lt? l = some l' := by
  refine ⟨_, sorted_eq_some.mpr ⟨?_, rfl⟩⟩
  apply List.pairwise_of_forall_mem_list
  intro a ha b hb
  exact ⟨h a ha b hb, h b hb a ha⟩

theorem mem_sorted {lt? : α → α → Option Bool} {l l' : List α} (h : sorted lt? l = some l') {a : α} :
    a ∈ l' ↔ a ∈ l := by
  rw [← (sorted_eq_some.mp h).2, List.mem_insertionSort]

/-- **The sort only sees the comparisons.** -/
theorem sorted_map {lt? : α → α → Option Bool} {lt?' : β → β → Option Bool} {f : α → β} {l : List α}
    (h : ∀ a ∈ l, ∀ b ∈ l, lt?' (f a) (f b) = lt? a b) : sorted lt?' (l.map f) = (sorted lt? l).map (List.map f) := by
  have hcomparable : Comparable lt?' (l.map f) ↔ Comparable lt? l := by
    unfold Comparable
    rw [List.pairwise_map]
    constructor
    · intro hall
      refine hall.imp_of_mem ?_
      intro a b ha hb hab
      rwa [h a ha b hb, h b hb a ha] at hab
    · intro hall
      refine hall.imp_of_mem ?_
      intro a b ha hb hab
      rwa [h a ha b hb, h b hb a ha]
  unfold sorted
  by_cases hc : Comparable lt? l
  · rw [if_pos hc, if_pos (hcomparable.mpr hc), Option.map_some, Option.some.injEq]
    refine (List.map_insertionSort _ _ f l ?_).symm
    intro a ha b hb
    rw [h b hb a ha]
  · rw [if_neg hc, if_neg fun hc' => hc (hcomparable.mp hc')]
    rfl

end Sorted

end Lib
