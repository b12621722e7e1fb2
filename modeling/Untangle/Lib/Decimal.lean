import Mathlib.Algebra.Order.Floor.Defs
import Mathlib.Data.Int.ConditionallyCompleteOrder
import Mathlib.Data.Rat.Floor
import Mathlib.Tactic.FieldSimp
import Mathlib.Tactic.Linarith
import Mathlib.Tactic.Positivity
import Mathlib.Tactic.Ring

/-!
# `Lib.Decimal` — rounding to a fixed number of decimals

Rounding half to even at `n` decimals, over exact rationals, with the two facts a client needs: the result
has `n` decimals (`isDecimal_roundTo`), and a number that already has `n` decimals is not moved
(`roundTo_of_isDecimal`). Sums and negatives of `n`-decimal numbers have `n` decimals, so a running total of
such numbers may be rounded after every addition without changing it.
-/

namespace Lib

/-- The nearest integer, ties to the even one. -/
def roundHalfEven (q : ℚ) : ℤ :=
  if q - ⌊q⌋ < 1 / 2 then ⌊q⌋
  else if 1 / 2 < q - ⌊q⌋ then ⌊q⌋ + 1
  else if ⌊q⌋ % 2 = 0 then ⌊q⌋ else ⌊q⌋ + 1

/-- `round(q, n)`. -/
def roundTo (n : Nat) (q : ℚ) : ℚ := roundHalfEven (q * 10 ^ n) / 10 ^ n

/-- `q` has at most `n` decimals. -/
def IsDecimal (n : Nat) (q : ℚ) : Prop := ∃ k : ℤ, q = k / 10 ^ n

theorem roundHalfEven_intCast (k : ℤ) : roundHalfEven k = k := by
  unfold roundHalfEven
  rw [Int.floor_intCast, sub_self, if_pos (by norm_num)]

theorem isDecimal_roundTo (n : Nat) (q : ℚ) : IsDecimal n (roundTo n q) := ⟨_, rfl⟩

/-- **Rounding does not move a number that already has `n` decimals.** -/
theorem roundTo_of_isDecimal {n : Nat} {q : ℚ} (h : IsDecimal n q) : roundTo n q = q := by
  obtain ⟨k, rfl⟩ := h
  have hpow : (10 : ℚ) ^ n ≠ 0 := by positivity
  unfold roundTo
  rw [div_mul_cancel₀ _ hpow, roundHalfEven_intCast]

theorem IsDecimal.zero {n : Nat} : IsDecimal n 0 := ⟨0, by simp⟩

theorem IsDecimal.add {n : Nat} {p q : ℚ} (hp : IsDecimal n p) (hq : IsDecimal n q) :
    IsDecimal n (p + q) := by
  obtain ⟨k, rfl⟩ := hp
  obtain ⟨l, rfl⟩ := hq
  exact ⟨k + l, by push_cast; ring⟩

theorem IsDecimal.neg {n : Nat} {q : ℚ} (hq : IsDecimal n q) : IsDecimal n (-q) := by
  obtain ⟨k, rfl⟩ := hq
  exact ⟨-k, by push_cast; ring⟩

theorem IsDecimal.sub {n : Nat} {p q : ℚ} (hp : IsDecimal n p) (hq : IsDecimal n q) :
    IsDecimal n (p - q) := by
  rw [sub_eq_add_neg]
  exact hp.add hq.neg

/-- Rounding after an addition of `n`-decimal numbers changes nothing. -/
theorem roundTo_add {n : Nat} {p q : ℚ} (hp : IsDecimal n p) (hq : IsDecimal n q) :
    roundTo n (p + q) = p + q := roundTo_of_isDecimal (hp.add hq)

/-! ## Monotonicity -/

theorem roundHalfEven_bounds (q : ℚ) : ⌊q⌋ ≤ roundHalfEven q ∧ roundHalfEven q ≤ ⌊q⌋ + 1 := by
  unfold roundHalfEven
  split
  · omega
  · split
    · omega
    · split <;> omega

theorem roundHalfEven_mono : Monotone roundHalfEven := by
  intro p q hpq
  have hfloor : ⌊p⌋ ≤ ⌊q⌋ := Int.floor_le_floor hpq
  rcases hfloor.lt_or_eq with hlt | heq
  · -- different integer parts: `p` goes to the next integer at most, `q` does not go below its own
    have hp := (roundHalfEven_bounds p).2
    have hq := (roundHalfEven_bounds q).1
    omega
  · -- one integer part: the fractional parts compare
    unfold roundHalfEven
    rw [heq]
    have hfrac : p - ⌊q⌋ ≤ q - ⌊q⌋ := sub_le_sub_right hpq _
    split
    · split
      · exact le_rfl
      · split
        · omega
        · split <;> omega
    · rename_i hp
      have hq : ¬ q - ⌊q⌋ < 1 / 2 := fun hq => hp (hfrac.trans_lt hq)
      rw [if_neg hq]
      split
      · rename_i hp
        rw [if_pos (hp.trans_le hfrac)]
      · split
        · split <;> omega
        · split <;> omega

theorem roundTo_mono (n : Nat) : Monotone (roundTo n) := by
  intro p q hpq
  have hpow : (0 : ℚ) < 10 ^ n := by positivity
  have hround := roundHalfEven_mono (mul_le_mul_of_nonneg_right hpq hpow.le)
  unfold roundTo
  gcongr

theorem roundTo_nonneg (n : Nat) {q : ℚ} (h : 0 ≤ q) : 0 ≤ roundTo n q := by
  rw [← roundTo_of_isDecimal (n := n) IsDecimal.zero]
  exact roundTo_mono n h

/-- Only what is more than half of the last place shows. -/
theorem roundTo_pos_iff (n : Nat) {q : ℚ} : 0 < roundTo n q ↔ 1 / (2 * 10 ^ n) < q := by
  have hpow : (0 : ℚ) < 10 ^ n := by positivity
  have hhalf : 1 / (2 * 10 ^ n) < q ↔ 1 / 2 < q * 10 ^ n := by
    rw [div_lt_iff₀ (by positivity), div_lt_iff₀ (by norm_num)]
    constructor <;> intro h <;> linarith
  rw [hhalf]
  unfold roundTo
  rw [div_pos_iff_of_pos_right hpow, Int.cast_pos]
  constructor
  · intro h
    by_contra hle
    have hmono := roundHalfEven_mono (not_lt.mp hle)
    have hround : roundHalfEven (1 / 2) = 0 := by decide +kernel
    omega
  · intro h
    have hfloor : 0 ≤ ⌊q * 10 ^ n⌋ := Int.floor_nonneg.mpr (by linarith)
    have hbounds := (roundHalfEven_bounds (q * 10 ^ n)).1
    by_contra hle
    -- the integer part would be zero, and more than a half is left over
    have hzero : ⌊q * 10 ^ n⌋ = 0 := by omega
    unfold roundHalfEven at hle
    rw [hzero, Int.cast_zero, sub_zero, if_neg (not_lt.mpr h.le), if_pos h] at hle
    omega

/-- A proportion stays one. -/
theorem roundTo_unit (n : Nat) {q : ℚ} (h0 : 0 ≤ q) (h1 : q ≤ 1) : 0 ≤ roundTo n q ∧ roundTo n q ≤ 1 := by
  have hone : roundTo n 1 = 1 := roundTo_of_isDecimal ⟨10 ^ n, by
    push_cast
    rw [div_self (by positivity)]⟩
  refine ⟨roundTo_nonneg n h0, ?_⟩
  rw [← hone]
  exact roundTo_mono n h1

/-! ## Fixed-point rendering -/

/-- The decimal digits of `k`, padded on the left with zeros to at least `width` digits. -/
def padDigits (width k : Nat) : String :=
  let digits := toString k
  String.ofList (List.replicate (width - digits.length) '0') ++ digits

/-- `format(q, ".nf")`: sign, integer part, point, exactly `n` decimals, rounded half to even. -/
def formatFixed (n : Nat) (q : ℚ) : String :=
  let k := roundHalfEven (q * 10 ^ n)
  let magnitude := k.natAbs
  let sign := if q < 0 then "-" else ""
  if n = 0 then sign ++ toString magnitude
  else sign ++ toString (magnitude / 10 ^ n) ++ "." ++ padDigits n (magnitude % 10 ^ n)

/-- Digits, the last one first, in groups of three. -/
def groupDigits : List Char → List Char
  | a :: b :: c :: d :: ds => a :: b :: c :: ',' :: groupDigits (d :: ds)
  | ds => ds

/-- `format(q, ",.nf")` for `0 < n`: the same with commas between the thousands. -/
def formatGrouped (n : Nat) (q : ℚ) : String :=
  let magnitude := (roundHalfEven (q * 10 ^ n)).natAbs
  (if q < 0 then "-" else "") ++
    String.ofList (groupDigits (toString (magnitude / 10 ^ n)).toList.reverse).reverse ++ "." ++
    padDigits n (magnitude % 10 ^ n)

end Lib
