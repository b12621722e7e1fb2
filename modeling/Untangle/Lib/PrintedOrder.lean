import Untangle.Lib.Binary64

/-!
# `Lib.PrintedOrder` — printed numbers of one width sort as numbers

Texts of one length are compared at the first place where they differ, and what is written after them does not matter
there. Padded with zeros to one width, numbers sort as texts the way they sort as numbers.
-/

namespace Lib

/-! ## Texts of one length -/

theorem append_lt_append_of_lt {xs ys us vs : List Char} (hlength : xs.length = ys.length) (h : xs < ys) :
    xs ++ us < ys ++ vs := by
  induction xs generalizing ys with
  | nil =>
      rw [List.length_nil, eq_comm, List.length_eq_zero_iff] at hlength
      subst hlength
      exact absurd h (lt_irrefl _)
  | cons x xs ih =>
      cases ys with
      | nil => exact absurd hlength (by simp)
      | cons y ys =>
          rw [List.cons_append, List.cons_append]
          rcases List.cons_lt_cons_iff.mp h with hfirst | ⟨rfl, hrest⟩
          · exact List.cons_lt_cons_iff.mpr (Or.inl hfirst)
          · exact List.cons_lt_cons_iff.mpr (Or.inr ⟨rfl, ih (Nat.succ.inj hlength) hrest⟩)

/-! ## Digits -/

/-- The codes of the digits. -/
theorem digit_bounds {d : Char} (h : d.isDigit = true) : 48 ≤ d.toNat ∧ d.toNat ≤ 57 := Char.isDigit_iff_toNat.mp h

/-- The number of a list of digits is below the power of ten of its length. -/
theorem ofDigitChars_lt {ds : List Char} (hds : ∀ d ∈ ds, d.isDigit = true) :
    Nat.ofDigitChars 10 ds 0 < 10 ^ ds.length := by
  induction ds with
  | nil => simp
  | cons d ds ih =>
      have hd : d.toNat - '0'.toNat ≤ 9 := by
        have hdigit := digit_bounds (hds d List.mem_cons_self)
        show d.toNat - 48 ≤ 9
        omega
      have hrest := ih fun c hc => hds c (List.mem_cons_of_mem _ hc)
      rw [Nat.ofDigitChars_cons, Nat.ofDigitChars_eq_ofDigitChars_zero, List.length_cons, Nat.pow_succ]
      have hmul : 10 ^ ds.length * (10 * 0 + (d.toNat - '0'.toNat)) ≤ 10 ^ ds.length * 9 :=
        Nat.mul_le_mul_left _ (by omega)
      omega

/-- Digit texts of one length sort as their numbers. -/
theorem lt_of_ofDigitChars_lt {ds es : List Char} (hds : ∀ d ∈ ds, d.isDigit = true) (hes : ∀ e ∈ es, e.isDigit = true)
    (hlength : ds.length = es.length) (h : Nat.ofDigitChars 10 ds 0 < Nat.ofDigitChars 10 es 0) : ds < es := by
  induction ds generalizing es with
  | nil =>
      rw [List.length_nil, eq_comm, List.length_eq_zero_iff] at hlength
      subst hlength
      exact absurd h (lt_irrefl _)
  | cons d ds ih =>
      cases es with
      | nil => exact absurd hlength (by simp)
      | cons e es =>
          have hsame : ds.length = es.length := Nat.succ.inj hlength
          have hrest : ∀ c ∈ ds, c.isDigit = true := fun c hc => hds c (List.mem_cons_of_mem _ hc)
          have hrest' : ∀ c ∈ es, c.isDigit = true := fun c hc => hes c (List.mem_cons_of_mem _ hc)
          have hd := digit_bounds (hds d List.mem_cons_self)
          have he := digit_bounds (hes e List.mem_cons_self)
          rw [Nat.ofDigitChars_cons, Nat.ofDigitChars_eq_ofDigitChars_zero, Nat.ofDigitChars_cons,
            Nat.ofDigitChars_eq_ofDigitChars_zero (l := es), hsame] at h
          have hlow := ofDigitChars_lt hrest
          have hlow' := ofDigitChars_lt hrest'
          rw [hsame] at hlow
          have hzero : '0'.toNat = 48 := rfl
          rw [hzero] at h
          rcases lt_trichotomy d.toNat e.toNat with hlt | heq | hgt
          · exact List.cons_lt_cons_iff.mpr (Or.inl hlt)
          · have hchar : d = e := Char.toNat_inj.mp heq
            rw [heq] at h
            exact List.cons_lt_cons_iff.mpr (Or.inr ⟨hchar, ih hrest hrest' hsame (by omega)⟩)
          · -- a larger first digit outweighs the rest
            have hmul : 10 ^ es.length * (10 * 0 + (e.toNat - 48) + 1) ≤ 10 ^ es.length * (10 * 0 + (d.toNat - 48)) :=
              Nat.mul_le_mul_left _ (by omega)
            rw [Nat.mul_add] at hmul
            omega

/-- **Padded numbers sort as numbers.** -/
theorem padDigits_lt {width a b : Nat} (hwidth : 0 < width) (hb : b < 10 ^ width) (h : a < b) :
    (padDigits width a).toList < (padDigits width b).toList := by
  apply lt_of_ofDigitChars_lt (fun _ hd => isDigit_padDigits hd) fun _ hd => isDigit_padDigits hd
  · rw [length_padDigits (h.trans hb) hwidth, length_padDigits hb hwidth]
  · rwa [ofDigitChars_padDigits, ofDigitChars_padDigits]

end Lib
