import Mathlib.Data.List.Basic

/-!
# `Lib.Locks` — processes that lock what they work on

Processes run side by side, and each holds the locks of some resources. If a process only takes a lock that no other
holds (`busy`), no lock is ever held twice (`Exclusive`). What one process relies on is then kept by the steps of the
others (`forall_set`), as far as it is about resources that it has locked.
-/

namespace Lib

section Locks

variable {ρ π : Type} (holds : π → List ρ)

/-- Whether another process than the `i`-th holds a lock. -/
def busy [DecidableEq ρ] (ps : List π) (i : Nat) (r : ρ) : Bool := ps.zipIdx.any fun p => p.2 ≠ i && r ∈ holds p.1

/-- No lock is held twice. -/
def Exclusive (ps : List π) : Prop :=
  ∀ (i j : Nat) (p q : π) (r : ρ), ps[i]? = some p → ps[j]? = some q → r ∈ holds p → r ∈ holds q → i = j

variable {holds} {ps : List π} {i : Nat} {p p' : π}

theorem busy_eq_false [DecidableEq ρ] {r : ρ} :
    busy holds ps i r = false ↔ ∀ (j : Nat) (q : π), ps[j]? = some q → r ∈ holds q → j = i := by
  unfold busy
  rw [List.any_eq_false]
  constructor
  · intro h j q hq hr
    have hj := h (q, j) (List.mem_zipIdx_iff_getElem?.mpr hq)
    rw [Bool.and_eq_true, not_and, decide_eq_true_eq, decide_eq_true_eq] at hj
    exact Decidable.byContradiction fun hne => hj hne hr
  · rintro h ⟨q, j⟩ hmem
    rw [Bool.and_eq_true, not_and, decide_eq_true_eq, decide_eq_true_eq]
    exact fun hne hr => hne (h j q (List.mem_zipIdx_iff_getElem?.mp hmem) hr)

theorem exclusive_nil : Exclusive holds [] := by
  intro i j p q r hp
  cases hp

/-- A process that begins holds nothing. -/
theorem Exclusive.append (h : Exclusive holds ps) (hp : holds p = []) : Exclusive holds (ps ++ [p]) := by
  have hold : ∀ (j : Nat) (q : π) (r : ρ), (ps ++ [p])[j]? = some q → r ∈ holds q → ps[j]? = some q := by
    intro j q r hq hr
    rcases Nat.lt_or_ge j ps.length with hj | hj
    · rwa [List.getElem?_append_left hj] at hq
    · rw [List.getElem?_append_right hj] at hq
      obtain rfl := List.mem_singleton.mp (List.mem_of_getElem? hq)
      rw [hp] at hr
      exact absurd hr List.not_mem_nil
  intro i j q q' r hq hq' hr hr'
  exact h i j q q' r (hold i q r hq hr) (hold j q' r hq' hr') hr hr'

/-- A process keeps the locks that it has, or takes ones that are free. -/
theorem Exclusive.set [DecidableEq ρ] (h : Exclusive holds ps) (hp : ps[i]? = some p)
    (hnew : ∀ r ∈ holds p', r ∈ holds p ∨ busy holds ps i r = false) : Exclusive holds (ps.set i p') := by
  -- Whoever else holds a lock of the new state of the process is the process itself.
  have hself : ∀ (j : Nat) (q : π) (r : ρ), ps[j]? = some q → r ∈ holds q → r ∈ holds p' → j = i := by
    intro j q r hq hr hr'
    rcases hnew r hr' with hheld | hfree
    · exact h j i q p r hq hp hr hheld
    · exact busy_eq_false.mp hfree j q hq hr
  have hlt := (List.getElem?_eq_some_iff.mp hp).1
  intro j k q q' r hq hq' hr hr'
  by_cases hj : i = j
  · subst hj
    rw [List.getElem?_set_self hlt] at hq
    obtain rfl := Option.some.inj hq
    by_cases hk : i = k
    · exact hk
    · rw [List.getElem?_set_ne hk] at hq'
      exact (hself k q' r hq' hr' hr).symm
  · rw [List.getElem?_set_ne hj] at hq
    by_cases hk : i = k
    · subst hk
      rw [List.getElem?_set_self hlt] at hq'
      obtain rfl := Option.some.inj hq'
      exact hself j q r hq hr hr'
    · rw [List.getElem?_set_ne hk] at hq'
      exact h j k q q' r hq hq' hr hr'

/-- A lock is free for the others while a process holds it. -/
theorem Exclusive.ne {j : Nat} {q : π} {r : ρ} (h : Exclusive holds ps) (hp : ps[i]? = some p) (hq : ps[j]? = some q)
    (hij : j ≠ i) (hr : r ∈ holds p) : r ∉ holds q := fun hr' => hij (h j i q p r hq hp hr' hr)

/-- At most one process holds a lock. -/
theorem Exclusive.countP_le_one (h : Exclusive holds ps) {r : ρ} {P : π → Bool} (hP : ∀ p, P p = true → r ∈ holds p) :
    ps.countP P ≤ 1 := by
  induction ps with
  | nil => exact Nat.zero_le 1
  | cons p ps ih =>
      have htail : Exclusive holds ps := fun i j q q' r hq hq' hr hr' =>
        Nat.succ.inj (h (i + 1) (j + 1) q q' r hq hq' hr hr')
      cases hp : P p with
      | false =>
          rw [List.countP_cons_of_neg (by rw [hp]; exact Bool.false_ne_true)]
          exact ih htail
      | true =>
          have hnone : ∀ q ∈ ps, ¬ P q = true := by
            intro q hq hPq
            obtain ⟨j, hj⟩ := List.mem_iff_getElem?.mp hq
            exact nomatch h 0 (j + 1) p q r rfl hj (hP p hp) (hP q hPq)
          have hzero : ps.countP P = 0 := List.countP_eq_zero.mpr hnone
          rw [List.countP_cons_of_pos hp]
          omega

end Locks

/-- What every process relies on, after a step of one of them. -/
theorem forall_set {π : Type} {ps : List π} {i : Nat} {p' : π} {I I' : Nat → π → Prop}
    (h : ∀ (j : Nat) (q : π), ps[j]? = some q → I j q) (hself : I' i p')
    (hothers : ∀ (j : Nat) (q : π), j ≠ i → ps[j]? = some q → I j q → I' j q) :
    ∀ (j : Nat) (q : π), (ps.set i p')[j]? = some q → I' j q := by
  intro j q hq
  by_cases hj : i = j
  · subst hj
    have hlt := (List.getElem?_eq_some_iff.mp hq).1
    rw [List.length_set] at hlt
    rw [List.getElem?_set_self hlt] at hq
    obtain rfl := Option.some.inj hq
    exact hself
  · rw [List.getElem?_set_ne hj] at hq
    exact hothers j q (Ne.symm hj) hq (h j q hq)

/-- The same when a process begins. -/
theorem forall_append {π : Type} {ps : List π} {p : π} {I : Nat → π → Prop}
    (h : ∀ (j : Nat) (q : π), ps[j]? = some q → I j q) (hself : I ps.length p) :
    ∀ (j : Nat) (q : π), (ps ++ [p])[j]? = some q → I j q := by
  intro j q hq
  rcases Nat.lt_or_ge j ps.length with hj | hj
  · rw [List.getElem?_append_left hj] at hq
    exact h j q hq
  · have hlt := (List.getElem?_eq_some_iff.mp hq).1
    rw [List.length_append, List.length_singleton] at hlt
    obtain rfl : j = ps.length := Nat.le_antisymm (Nat.le_of_lt_succ hlt) hj
    rw [List.getElem?_concat_length] at hq
    obtain rfl := Option.some.inj hq
    exact hself

end Lib
