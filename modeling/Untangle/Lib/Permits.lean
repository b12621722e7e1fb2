import Mathlib.Data.List.Basic

/-!
# `Lib.Permits` — permits that are lent and given back

A number of permits is lent to parties, one each. What is left and what the parties own adds up to the number that
there is (`Balanced`): that is kept when a party comes with a permit, gives it back or goes on with what it has. So no
more parties own a permit than there are permits, and all of them are back once no party owns one.
-/

namespace Lib

section Permits

variable {π : Type} (owns : π → Bool) (capacity : Nat)

/-- The permits that are left and those that are owned are all there are. -/
def Balanced (value : Nat) (ps : List π) : Prop := value + ps.countP owns = capacity

variable {owns} {capacity} {value i : Nat} {ps : List π} {p p' : π}

theorem balanced_nil : Balanced owns capacity capacity [] := rfl

/-- A party that takes a permit. -/
theorem Balanced.acquire (h : Balanced owns capacity value ps) (hvalue : value ≠ 0) (hp : owns p = true) :
    Balanced owns capacity (value - 1) (ps ++ [p]) := by
  unfold Balanced at h ⊢
  rw [List.countP_append, List.countP_singleton, if_pos hp]
  omega

theorem countP_set_of_getElem? (hi : ps[i]? = some p) :
    (ps.set i p').countP owns + (owns p).toNat = ps.countP owns + (owns p').toNat := by
  induction ps generalizing i with
  | nil => cases hi
  | cons q ps ih =>
      cases i with
      | zero =>
          obtain rfl := Option.some.inj hi
          rw [List.set_cons_zero, List.countP_cons, List.countP_cons]
          cases owns q <;> cases owns p' <;> simp
      | succ i =>
          rw [List.set_cons_succ, List.countP_cons, List.countP_cons, Nat.add_right_comm, ih hi, Nat.add_right_comm]

/-- A party that gives its permit back. -/
theorem Balanced.release (h : Balanced owns capacity value ps) (hi : ps[i]? = some p) (hp : owns p = true)
    (hp' : owns p' = false) : Balanced owns capacity (value + 1) (ps.set i p') := by
  have hcount : (ps.set i p').countP owns + (owns p).toNat = ps.countP owns + (owns p').toNat :=
    countP_set_of_getElem? hi
  rw [hp, hp'] at hcount
  unfold Balanced at h ⊢
  simp only [Bool.toNat_true, Bool.toNat_false] at hcount
  omega

/-- Where a party owns a permit, not all of them are there. -/
theorem Balanced.lt_of_owns (h : Balanced owns capacity value ps) (hi : ps[i]? = some p) (hp : owns p = true) :
    value < capacity := by
  have hpos : 0 < ps.countP owns := List.countP_pos_iff.mpr ⟨p, List.mem_of_getElem? hi, hp⟩
  unfold Balanced at h
  omega

/-- A party that keeps what it has. -/
theorem Balanced.set (h : Balanced owns capacity value ps) (hi : ps[i]? = some p) (hsame : owns p' = owns p) :
    Balanced owns capacity value (ps.set i p') := by
  have hcount : (ps.set i p').countP owns + (owns p).toNat = ps.countP owns + (owns p').toNat :=
    countP_set_of_getElem? hi
  rw [hsame] at hcount
  unfold Balanced at h ⊢
  omega

/-- No more parties do what takes a permit than there are permits. -/
theorem Balanced.countP_le (h : Balanced owns capacity value ps) {busy : π → Bool}
    (hbusy : ∀ p ∈ ps, busy p = true → owns p = true) : ps.countP busy ≤ capacity := by
  have hle : ps.countP busy ≤ ps.countP owns := List.countP_mono_left hbusy
  unfold Balanced at h
  omega

/-- Every permit is back when no party owns one. -/
theorem Balanced.eq_capacity (h : Balanced owns capacity value ps) (hnone : ∀ p ∈ ps, owns p = false) :
    value = capacity := by
  have hzero : ps.countP owns = 0 := List.countP_eq_zero.mpr fun p hp => by rw [hnone p hp]; exact Bool.false_ne_true
  unfold Balanced at h
  omega

end Permits

end Lib
