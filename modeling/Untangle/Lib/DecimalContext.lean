import Mathlib.Algebra.Order.Floor.Ring
import Mathlib.Data.Int.ConditionallyCompleteOrder
import Mathlib.Data.Rat.Floor
import Mathlib.Tactic.FieldSimp
import Mathlib.Tactic.Linarith
import Mathlib.Tactic.Positivity
import Mathlib.Tactic.Ring

/-!
# `Lib.DecimalContext` — decimal arithmetic to a precision

Decimal floating-point numbers as a sign, a coefficient and an exponent. An operation is exact and then fitted to a
context: the coefficient is rounded half to even to the precision, and what has more digits than the exponent allows
overflows. Quantizing to units rounds a second time, half up. `quantize_fit` says when the two roundings are one:
unless the digits kept by the first one stand one below a half and it rounds them up (`Spoiled`).
-/

namespace Lib

/-! ## Rounded quotients -/

/-- The quotient to the nearest, ties to the even one. -/
def halfEvenDiv (a b : ℕ) : ℕ :=
  if 2 * (a % b) < b then a / b else if b < 2 * (a % b) then a / b + 1 else a / b + a / b % 2

/-- The quotient to the nearest, ties up. -/
def halfUpDiv (a b : ℕ) : ℕ := if 2 * (a % b) < b then a / b else a / b + 1

/-- Half to even goes up. -/
def RoundsUp (a b : ℕ) : Prop := b < 2 * (a % b) ∨ (2 * (a % b) = b ∧ a / b % 2 = 1)

instance (a b : ℕ) : Decidable (RoundsUp a b) := inferInstanceAs (Decidable (_ ∨ _))

theorem halfEvenDiv_eq (a b : ℕ) : halfEvenDiv a b = a / b + if RoundsUp a b then 1 else 0 := by
  by_cases hup : RoundsUp a b
  · rw [if_pos hup]
    unfold RoundsUp at hup
    unfold halfEvenDiv
    split_ifs <;> omega
  · rw [if_neg hup]
    unfold RoundsUp at hup
    unfold halfEvenDiv
    split_ifs <;> omega

theorem halfUpDiv_eq (a : ℕ) {b : ℕ} (hb : 0 < b) : halfUpDiv a b = (2 * a + b) / (2 * b) := by
  have hmod := Nat.mod_lt a hb
  have hdiv : 2 * a + b = a / b * (2 * b) + (2 * (a % b) + b) := by
    have := Nat.div_add_mod a b
    nlinarith
  have hrest : (2 * (a % b) + b) / (2 * b) = if 2 * (a % b) < b then 0 else 1 := by
    split_ifs with hhalf
    · exact Nat.div_eq_of_lt (by omega)
    · exact Nat.div_eq_of_lt_le (by omega) (by omega)
  rw [hdiv, Nat.mul_comm (a / b), Nat.mul_add_div (by omega), hrest]
  unfold halfUpDiv
  split_ifs <;> rfl

theorem halfEvenDiv_le (a b : ℕ) : halfEvenDiv a b ≤ a / b + 1 := by
  unfold halfEvenDiv
  split_ifs <;> omega

theorem halfUpDiv_le (a : ℕ) {b : ℕ} (hb : 0 < b) : halfUpDiv a b ≤ a := by
  have hsplit := Nat.div_add_mod a b
  have hle := Nat.le_mul_of_pos_left (a / b) hb
  unfold halfUpDiv
  split_ifs <;> omega

@[simp] theorem halfEvenDiv_one (a : ℕ) : halfEvenDiv a 1 = a := by
  unfold halfEvenDiv
  rw [Nat.mod_one, Nat.div_one, if_pos (by decide)]

@[simp] theorem halfUpDiv_one (a : ℕ) : halfUpDiv a 1 = a := by
  unfold halfUpDiv
  rw [Nat.mod_one, Nat.div_one, if_pos (by decide)]

/-- One rounding half to even is one half up, unless it is a tie that goes down. -/
theorem halfEvenDiv_eq_halfUpDiv_iff (a b : ℕ) :
    halfEvenDiv a b = halfUpDiv a b ↔ ¬ (2 * (a % b) = b ∧ a / b % 2 = 0) := by
  unfold halfEvenDiv halfUpDiv
  split_ifs <;> omega

/-- The dropped digits do not decide on which side of a half the kept ones are. -/
theorem lt_half_iff {b h s t : ℕ} (ht : t < b) : 2 * (t + b * s) < b * (2 * h) ↔ s < h := by
  have hdouble : b * (2 * h) = 2 * (b * h) := by ring
  rw [hdouble]
  constructor
  · intro hlt
    by_contra hge
    have := Nat.mul_le_mul_left b (not_lt.mp hge)
    omega
  · intro hlt
    have hle := Nat.mul_le_mul_left b (Nat.succ_le_of_lt hlt)
    rw [Nat.mul_succ] at hle
    omega

/-- **Two roundings are one**, unless the first one goes up to a half of the second. -/
theorem halfUpDiv_halfEvenDiv_iff {c b h : ℕ} (hb : 0 < b) (hh : 0 < h) :
    halfUpDiv (halfEvenDiv c b) (2 * h) = halfUpDiv c (b * (2 * h)) ↔
      ¬ (c / b % (2 * h) + 1 = h ∧ RoundsUp c b) := by
  have hmod : c % (b * (2 * h)) = c % b + b * (c / b % (2 * h)) := Nat.mod_mul
  have hdiv : c / (b * (2 * h)) = c / b / (2 * h) := (Nat.div_div_eq_div_mul c b (2 * h)).symm
  have hs : c / b % (2 * h) < 2 * h := Nat.mod_lt _ (by omega)
  have ht : c % b < b := Nat.mod_lt c hb
  -- what is dropped at first does not matter to the exact rounding
  have hexact : halfUpDiv c (b * (2 * h)) = c / b / (2 * h) + if c / b % (2 * h) < h then 0 else 1 := by
    have hhalf : 2 * (c % (b * (2 * h))) < b * (2 * h) ↔ c / b % (2 * h) < h := by
      rw [hmod]
      exact lt_half_iff ht
    unfold halfUpDiv
    rw [hdiv]
    by_cases hlt : c / b % (2 * h) < h
    · rw [if_pos (hhalf.mpr hlt), if_pos hlt, Nat.add_zero]
    · rw [if_neg (fun h => hlt (hhalf.mp h)), if_neg hlt]
  rw [hexact, halfEvenDiv_eq]
  generalize hq : c / b = q at *
  by_cases hup : RoundsUp c b
  · rw [if_pos hup]
    have hsplit := Nat.div_add_mod q (2 * h)
    by_cases hlast : q % (2 * h) + 1 = 2 * h
    · -- the last unit of a span carries to the next one
      have hnext : q + 1 = (q / (2 * h) + 1) * (2 * h) := by nlinarith
      unfold halfUpDiv
      rw [hnext, Nat.mul_mod_left, Nat.mul_div_cancel _ (by omega), if_pos (by omega), if_neg (by omega)]
      exact iff_of_true rfl (by omega)
    · have hdiv' : (q + 1) / (2 * h) = q / (2 * h) := by
        rw [Nat.succ_div_of_not_dvd]
        intro hdvd
        have hzero := Nat.mod_eq_zero_of_dvd hdvd
        rw [Nat.add_mod_eq_add_mod_right 1 (Nat.mod_mod q (2 * h)).symm, Nat.mod_eq_of_lt (by omega)] at hzero
        omega
      have hmod' : (q + 1) % (2 * h) = q % (2 * h) + 1 := by
        have hsplit' := Nat.div_add_mod (q + 1) (2 * h)
        rw [hdiv'] at hsplit'
        omega
      unfold halfUpDiv
      rw [hdiv', hmod']
      simp only [hup, and_true]
      split_ifs <;> omega
  · rw [if_neg hup, Nat.add_zero]
    unfold halfUpDiv
    simp only [hup, and_false, not_false_iff, iff_true]
    split_ifs <;> omega

/-! ## Digits -/

/-- The digits of a number; zero has one. -/
def numDigits (n : ℕ) : ℕ := (Nat.toDigits 10 n).length

theorem numDigits_le_iff {n k : ℕ} (hk : 0 < k) : numDigits n ≤ k ↔ n < 10 ^ k :=
  Nat.length_toDigits_le_iff (by decide) hk

theorem numDigits_pos (n : ℕ) : 0 < numDigits n := List.length_pos_iff.mpr Nat.toDigits_ne_nil

theorem lt_pow_numDigits (n : ℕ) : n < 10 ^ numDigits n := (numDigits_le_iff (numDigits_pos n)).mp le_rfl

theorem pow_le_of_numDigits {n : ℕ} (hn : 0 < n) : 10 ^ (numDigits n - 1) ≤ n := by
  by_cases hone : numDigits n = 1
  · rw [hone]
    exact hn
  · have hpos := numDigits_pos n
    by_contra hlt
    have hle := (numDigits_le_iff (by omega)).mpr (not_le.mp hlt)
    omega

theorem numDigits_eq {n d : ℕ} (hlo : 10 ^ d ≤ n) (hhi : n < 10 ^ (d + 1)) : numDigits n = d + 1 := by
  apply le_antisymm ((numDigits_le_iff (Nat.succ_pos d)).mpr hhi)
  by_contra hlt
  have hpow := Nat.pow_le_pow_right (by decide : 0 < 10) (by omega : numDigits n ≤ d)
  have := lt_pow_numDigits n
  omega

theorem numDigits_pow (d : ℕ) : numDigits (10 ^ d) = d + 1 :=
  numDigits_eq le_rfl (Nat.pow_lt_pow_right (by decide) (Nat.lt_succ_self d))

/-! ## Rounding to units -/

/-- The nearest integer, ties away from zero. -/
def roundHalfUp (q : ℚ) : ℤ := if 0 ≤ q then ⌊q + 1 / 2⌋ else -⌊-q + 1 / 2⌋

/-- `c * 10 ^ e` rounded half up. -/
def scaledHalfUp (c : ℕ) (e : ℤ) : ℕ := if 0 ≤ e then c * 10 ^ e.toNat else halfUpDiv c (10 ^ (-e).toNat)

theorem scaledHalfUp_eq (c : ℕ) (e : ℤ) : (scaledHalfUp c e : ℤ) = roundHalfUp ((c : ℚ) * 10 ^ e) := by
  have hnonneg : 0 ≤ (c : ℚ) * 10 ^ e := mul_nonneg (Nat.cast_nonneg c) (zpow_nonneg (by norm_num) e)
  unfold scaledHalfUp roundHalfUp
  rw [if_pos hnonneg]
  split_ifs with he
  · obtain ⟨n, rfl⟩ := Int.eq_ofNat_of_zero_le he
    symm
    rw [Int.floor_eq_iff, zpow_natCast, Int.toNat_natCast]
    push_cast
    constructor <;> linarith
  · obtain ⟨n, rfl⟩ : ∃ n : ℕ, e = -(n : ℤ) := ⟨(-e).toNat, by omega⟩
    have hpow : 0 < 10 ^ n := Nat.pow_pos (by decide)
    have hfrac : (c : ℚ) * 10 ^ (-(n : ℤ)) + 1 / 2 = ((2 * c + 10 ^ n : ℕ) : ℚ) / ((2 * 10 ^ n : ℕ) : ℚ) := by
      rw [zpow_neg, zpow_natCast]
      push_cast
      field_simp
    rw [hfrac, Rat.floor_natCast_div_natCast, neg_neg, Int.toNat_natCast, halfUpDiv_eq c hpow]
    rfl

/-- Half up does not prefer a sign. -/
theorem roundHalfUp_neg (q : ℚ) : roundHalfUp (-q) = -roundHalfUp q := by
  unfold roundHalfUp
  rcases lt_trichotomy q 0 with hneg | rfl | hpos
  · rw [if_pos (by linarith), if_neg (by linarith), neg_neg]
  · norm_num
  · rw [if_neg (by linarith), if_pos hpos.le, neg_neg]

/-- The rounding depends on the number only. -/
theorem scaledHalfUp_shift (c k : ℕ) (e : ℤ) : scaledHalfUp (c * 10 ^ k) e = scaledHalfUp c (e + k) := by
  have hcast : ((scaledHalfUp (c * 10 ^ k) e : ℕ) : ℤ) = scaledHalfUp c (e + k) := by
    rw [scaledHalfUp_eq, scaledHalfUp_eq, zpow_add₀ (by norm_num), zpow_natCast]
    push_cast
    congr 1
    ring
  exact_mod_cast hcast

theorem scaledHalfUp_of_lt {c : ℕ} {e : ℤ} (he : e < 0) (hc : 2 * c < 10 ^ (-e).toNat) : scaledHalfUp c e = 0 := by
  unfold scaledHalfUp halfUpDiv
  rw [if_neg (by omega), Nat.mod_eq_of_lt (by omega), if_pos hc, Nat.div_eq_of_lt (by omega)]

/-! ## Contexts -/

/-- A decimal number. -/
structure Numeral where
  negative : Bool
  coeff : ℕ
  exp : ℤ
deriving DecidableEq, Repr

def Numeral.value (x : Numeral) : ℚ := (if x.negative then -1 else 1) * ((x.coeff : ℚ) * 10 ^ x.exp)

theorem Numeral.roundHalfUp_value (x : Numeral) :
    roundHalfUp x.value = (if x.negative then -1 else 1) * (scaledHalfUp x.coeff x.exp : ℤ) := by
  rw [scaledHalfUp_eq]
  unfold Numeral.value
  cases x.negative with
  | true => rw [if_pos rfl, if_pos rfl, neg_one_mul, neg_one_mul, roundHalfUp_neg]
  | false => rw [if_neg Bool.false_ne_true, if_neg Bool.false_ne_true, one_mul, one_mul]

/-- The precision of a computation, and the range of its exponents. -/
structure Context where
  prec : ℕ
  emin : ℤ
  emax : ℤ
  prec_pos : 0 < prec
  emin_neg : emin + 1 < 0
  prec_le : (prec : ℤ) ≤ emax

namespace Context

variable (ctx : Context)

/-- The exponent of the smallest number. -/
def etiny : ℤ := ctx.emin - ctx.prec + 1

/-- How many digits of a number do not fit. -/
def excess (x : Numeral) : ℕ := (max ((numDigits x.coeff : ℤ) - ctx.prec) (ctx.etiny - x.exp)).toNat

/-- The number that fits, rounded half to even; too large a number overflows. -/
def fit (x : Numeral) : Option Numeral :=
  if x.coeff = 0 then some { x with exp := max ctx.etiny (min x.exp ctx.emax) }
  else
    let kept := halfEvenDiv x.coeff (10 ^ ctx.excess x)
    let exp := x.exp + ctx.excess x
    -- a coefficient of nines is rounded to a power of ten
    let y : Numeral := if ctx.prec < numDigits kept then ⟨x.negative, kept / 10, exp + 1⟩ else ⟨x.negative, kept, exp⟩
    if y.coeff ≠ 0 ∧ ctx.emax < y.exp + numDigits y.coeff - 1 then none else some y

/-- The product of two numbers. -/
def mul (x y : Numeral) : Option Numeral :=
  ctx.fit ⟨xor x.negative y.negative, x.coeff * y.coeff, x.exp + y.exp⟩

/-- The number rounded half up to units; the units must fit the precision. -/
def quantizeUnit (x : Numeral) : Option ℤ :=
  if x.coeff = 0 then some 0
  else if ctx.prec < x.exp + numDigits x.coeff then none
  else
    let n := scaledHalfUp x.coeff x.exp
    if ctx.prec < numDigits n then none else some ((if x.negative then -1 else 1) * n)

/-! ### What is lost -/

/-- The digits beyond the precision. -/
def beyond (c : ℕ) : ℕ := numDigits c - ctx.prec

/-- Fitting adds a digit: the digits kept are nines, and they are rounded up. -/
def Carries (c : ℕ) : Prop := 0 < ctx.beyond c ∧ 10 ^ numDigits c ≤ c + 10 ^ ctx.beyond c / 2

instance (c : ℕ) : Decidable (ctx.Carries c) := inferInstanceAs (Decidable (_ ∧ _))

/-- The digits before the point of a number fitted. -/
def width (x : Numeral) : ℤ := x.exp + numDigits x.coeff + if ctx.Carries x.coeff then 1 else 0

/-- The second rounding is misled by the first one: the digits beyond the precision are a half that half to even drops,
    or the kept ones stand one below a half and are rounded up to it. -/
def Spoiled (x : Numeral) : Prop :=
  let b := 10 ^ ctx.beyond x.coeff
  let m := (-(x.exp + ctx.beyond x.coeff)).toNat
  0 < ctx.beyond x.coeff ∧
    if m = 0 then 2 * (x.coeff % b) = b ∧ x.coeff / b % 2 = 0
    else 2 * (x.coeff / b % 10 ^ m + 1) = 10 ^ m ∧ RoundsUp x.coeff b

instance (x : Numeral) : Decidable (ctx.Spoiled x) := by
  unfold Spoiled
  infer_instance

/-! ### Fitting -/

variable {ctx} {x : Numeral}

theorem numDigits_eq_add (h : 0 < ctx.beyond x.coeff) : numDigits x.coeff = ctx.prec + ctx.beyond x.coeff := by
  unfold beyond at *
  omega

/-- The digits kept, when there are more: as many as the precision has, or the next power of ten. -/
theorem kept_bounds (h : 0 < ctx.beyond x.coeff) :
    10 ^ (ctx.prec - 1) ≤ halfEvenDiv x.coeff (10 ^ ctx.beyond x.coeff) ∧
      if ctx.Carries x.coeff then halfEvenDiv x.coeff (10 ^ ctx.beyond x.coeff) = 10 ^ ctx.prec
      else halfEvenDiv x.coeff (10 ^ ctx.beyond x.coeff) < 10 ^ ctx.prec := by
  have hdigits := numDigits_eq_add h
  have hprec := ctx.prec_pos
  have hpos : 0 < x.coeff := by
    by_contra hzero
    have hone : numDigits x.coeff = 1 := by
      rw [show x.coeff = 0 by omega]
      rfl
    omega
  have hb : 0 < 10 ^ ctx.beyond x.coeff := Nat.pow_pos (by decide)
  have heven : 2 * (10 ^ ctx.beyond x.coeff / 2) = 10 ^ ctx.beyond x.coeff :=
    Nat.mul_div_cancel' (dvd_pow (by decide : 2 ∣ 10) h.ne')
  have hodd : 10 ^ ctx.prec % 2 = 0 := Nat.mod_eq_zero_of_dvd (dvd_pow (by decide : 2 ∣ 10) hprec.ne')
  have hlo : 10 ^ (ctx.prec - 1) ≤ x.coeff / 10 ^ ctx.beyond x.coeff := by
    rw [Nat.le_div_iff_mul_le hb, ← pow_add]
    have := pow_le_of_numDigits hpos
    rwa [hdigits, show ctx.prec + ctx.beyond x.coeff - 1 = ctx.prec - 1 + ctx.beyond x.coeff by omega] at this
  have hhi : x.coeff / 10 ^ ctx.beyond x.coeff < 10 ^ ctx.prec := by
    rw [Nat.div_lt_iff_lt_mul hb, ← pow_add, ← hdigits]
    exact lt_pow_numDigits _
  have hcarry : ctx.Carries x.coeff ↔
      x.coeff / 10 ^ ctx.beyond x.coeff + 1 = 10 ^ ctx.prec ∧ RoundsUp x.coeff (10 ^ ctx.beyond x.coeff) := by
    have hsplit := Nat.div_add_mod x.coeff (10 ^ ctx.beyond x.coeff)
    have hmod := Nat.mod_lt x.coeff hb
    unfold Carries RoundsUp
    rw [hdigits, pow_add]
    generalize 10 ^ ctx.beyond x.coeff = b at *
    generalize 10 ^ ctx.prec = p at *
    generalize x.coeff / b = q at *
    generalize x.coeff % b = t at *
    obtain ⟨j, rfl⟩ : ∃ j, p = q + 1 + j := ⟨p - q - 1, by omega⟩
    have hexpand : (q + 1 + j) * b = b * q + b + j * b := by ring
    have hgap : j = 0 ∨ b ≤ j * b := by
      rcases Nat.eq_zero_or_pos j with hj | hj
      · exact Or.inl hj
      · exact Or.inr (Nat.le_mul_of_pos_left b hj)
    rw [hexpand]
    constructor
    · rintro ⟨_, hle⟩
      obtain rfl : j = 0 := hgap.resolve_right (by omega)
      omega
    · rintro ⟨hlast, hup⟩
      obtain rfl : j = 0 := by omega
      rw [Nat.zero_mul]
      exact ⟨h, by omega⟩
  rw [halfEvenDiv_eq]
  by_cases hup : RoundsUp x.coeff (10 ^ ctx.beyond x.coeff)
  · rw [if_pos hup]
    simp only [hcarry, hup, and_true]
    refine ⟨by omega, ?_⟩
    split_ifs <;> omega
  · rw [if_neg hup]
    simp only [hcarry, hup, and_false, if_false]
    exact ⟨hlo, hhi⟩

/-- The exponent does not matter to a number that is not tiny. -/
theorem excess_eq (h : 0 ≤ x.exp + numDigits x.coeff) : ctx.excess x = ctx.beyond x.coeff := by
  have hemin := ctx.emin_neg
  unfold excess etiny beyond
  omega

/-- What a number that is not tiny is fitted to. -/
structure Fitted (ctx : Context) (x y : Numeral) : Prop where
  ne_zero : y.coeff ≠ 0
  negative : y.negative = x.negative
  digits : numDigits y.coeff ≤ ctx.prec
  width : y.exp + numDigits y.coeff = ctx.width x
  units : scaledHalfUp y.coeff y.exp =
    scaledHalfUp (halfEvenDiv x.coeff (10 ^ ctx.beyond x.coeff)) (x.exp + ctx.beyond x.coeff)

theorem fit_eq (hc : x.coeff ≠ 0) (h : 0 ≤ x.exp + numDigits x.coeff) :
    ∃ y, Fitted ctx x y ∧ ctx.fit x = if ctx.emax < ctx.width x - 1 then none else some y := by
  have hprec := ctx.prec_pos
  unfold fit
  rw [if_neg hc, excess_eq h]
  dsimp only
  by_cases hk : 0 < ctx.beyond x.coeff
  · have hdigits := numDigits_eq_add hk
    obtain ⟨hlo, hhi⟩ := kept_bounds hk
    by_cases hcarry : ctx.Carries x.coeff
    · rw [if_pos hcarry] at hhi
      have hpow : 10 ^ ctx.prec = 10 ^ (ctx.prec - 1) * 10 := by
        rw [← pow_succ, Nat.sub_add_cancel hprec]
      have htenth : 10 ^ ctx.prec / 10 = 10 ^ (ctx.prec - 1) := by
        rw [hpow, Nat.mul_div_cancel _ (by decide)]
      have hnum : numDigits (10 ^ (ctx.prec - 1)) = ctx.prec := by
        rw [numDigits_pow, Nat.sub_add_cancel hprec]
      rw [hhi, numDigits_pow, if_pos (Nat.lt_succ_self _), htenth]
      have hwidth : x.exp + ctx.beyond x.coeff + 1 + (numDigits (10 ^ (ctx.prec - 1)) : ℤ) = ctx.width x := by
        unfold Context.width
        rw [if_pos hcarry, hnum, hdigits]
        push_cast
        ring
      refine ⟨⟨x.negative, 10 ^ (ctx.prec - 1), x.exp + ctx.beyond x.coeff + 1⟩, ⟨?_, rfl, hnum.le, hwidth, ?_⟩, ?_⟩
      · exact (Nat.pow_pos (by decide)).ne'
      · have hshift := scaledHalfUp_shift (10 ^ (ctx.prec - 1)) 1 (x.exp + ctx.beyond x.coeff)
        rw [hhi, hpow]
        exact hshift.symm
      · dsimp only
        rw [hwidth]
        simp
    · rw [if_neg hcarry] at hhi
      have hnum : numDigits (halfEvenDiv x.coeff (10 ^ ctx.beyond x.coeff)) = ctx.prec := by
        have := numDigits_eq hlo (by rwa [Nat.sub_add_cancel hprec])
        omega
      have hwidth : x.exp + ctx.beyond x.coeff + (numDigits (halfEvenDiv x.coeff (10 ^ ctx.beyond x.coeff)) : ℤ) =
          ctx.width x := by
        unfold Context.width
        rw [if_neg hcarry, hnum, hdigits]
        push_cast
        ring
      have hpos := (Nat.pow_pos (by decide : 0 < 10)).trans_le hlo
      have hfits : ¬ ctx.prec < numDigits (halfEvenDiv x.coeff (10 ^ ctx.beyond x.coeff)) := by omega
      rw [if_neg hfits]
      refine ⟨⟨x.negative, halfEvenDiv x.coeff (10 ^ ctx.beyond x.coeff), x.exp + ctx.beyond x.coeff⟩,
        ⟨hpos.ne', rfl, hnum.le, hwidth, rfl⟩, ?_⟩
      dsimp only
      rw [hwidth]
      simp [hpos.ne']
  · have hzero : ctx.beyond x.coeff = 0 := by omega
    have hnum : numDigits x.coeff ≤ ctx.prec := by
      unfold beyond at hzero
      omega
    have hwidth : x.exp + (numDigits x.coeff : ℤ) = ctx.width x := by
      unfold Context.width
      rw [if_neg fun h : ctx.Carries x.coeff => hk h.1, add_zero]
    rw [hzero, pow_zero, halfEvenDiv_one, Nat.cast_zero, add_zero, if_neg (not_lt.mpr hnum)]
    refine ⟨⟨x.negative, x.coeff, x.exp⟩, ⟨hc, rfl, hnum, hwidth, ?_⟩, ?_⟩
    · rw [hzero, pow_zero, halfEvenDiv_one, Nat.cast_zero, add_zero]
    · dsimp only
      rw [hwidth]
      simp [hc]

/-- However many digits of a tiny number are dropped, what is kept comes to less than a half. -/
theorem tiny_kept (h : x.exp + numDigits x.coeff < 0) (j : ℕ) :
    2 * halfEvenDiv x.coeff (10 ^ j) < 10 ^ (-(x.exp + j)).toNat ∧
      (halfEvenDiv x.coeff (10 ^ j) ≠ 0 → x.exp + j + numDigits (halfEvenDiv x.coeff (10 ^ j)) ≤ 0) := by
  have hlt := lt_pow_numDigits x.coeff
  rcases Nat.lt_or_ge (numDigits x.coeff) j with hall | hsome
  · have hzero : halfEvenDiv x.coeff (10 ^ j) = 0 := by
      have hpow : 2 * 10 ^ numDigits x.coeff < 10 ^ j := by
        calc 2 * 10 ^ numDigits x.coeff < 10 ^ (numDigits x.coeff + 1) := by rw [pow_succ]; omega
          _ ≤ 10 ^ j := Nat.pow_le_pow_right (by decide) hall
      unfold halfEvenDiv
      rw [Nat.mod_eq_of_lt (by omega), if_pos (by omega), Nat.div_eq_of_lt (by omega)]
    rw [hzero]
    exact ⟨Nat.pow_pos (by decide), fun hne => absurd rfl hne⟩
  · have hkept : halfEvenDiv x.coeff (10 ^ j) ≤ 10 ^ (numDigits x.coeff - j) := by
      have hdiv : x.coeff / 10 ^ j < 10 ^ (numDigits x.coeff - j) := by
        rw [Nat.div_lt_iff_lt_mul (Nat.pow_pos (by decide)), ← pow_add, Nat.sub_add_cancel hsome]
        exact hlt
      have := halfEvenDiv_le x.coeff (10 ^ j)
      omega
    constructor
    · calc 2 * halfEvenDiv x.coeff (10 ^ j) ≤ 2 * 10 ^ (numDigits x.coeff - j) := Nat.mul_le_mul_left 2 hkept
        _ < 10 ^ (numDigits x.coeff - j + 1) := by
            have hpos : 0 < 10 ^ (numDigits x.coeff - j) := Nat.pow_pos (by decide)
            rw [pow_succ]
            omega
        _ ≤ 10 ^ (-(x.exp + j)).toNat := Nat.pow_le_pow_right (by decide) (by omega)
    · intro _
      have hnum : numDigits (halfEvenDiv x.coeff (10 ^ j)) ≤ numDigits x.coeff - j + 1 := by
        apply (numDigits_le_iff (Nat.succ_pos _)).mpr
        exact hkept.trans_lt (Nat.pow_lt_pow_right (by decide) (Nat.lt_succ_self _))
      omega

/-- What comes to less than a half has no units. -/
theorem quantizeUnit_tiny {y : Numeral} (h : y.coeff ≠ 0 → y.exp + numDigits y.coeff ≤ 0 ∧
    2 * y.coeff < 10 ^ (-y.exp).toNat) : ctx.quantizeUnit y = some 0 := by
  have hprec := ctx.prec_pos
  unfold quantizeUnit
  by_cases hzero : y.coeff = 0
  · rw [if_pos hzero]
  · obtain ⟨hexp, hhalf⟩ := h hzero
    have hpos := numDigits_pos y.coeff
    have hone : numDigits 0 = 1 := rfl
    rw [if_neg hzero, if_neg (by omega), scaledHalfUp_of_lt (by omega) hhalf]
    dsimp only
    rw [if_neg (by omega), Nat.cast_zero, mul_zero]

/-- A tiny number is fitted to one that has no units. -/
theorem fit_tiny (hc : x.coeff ≠ 0) (h : x.exp + numDigits x.coeff < 0) :
    ∃ y, ctx.fit x = some y ∧ ctx.quantizeUnit y = some 0 := by
  have hprec := ctx.prec_pos
  have hemax := ctx.prec_le
  obtain ⟨hhalf, hexp⟩ := tiny_kept h (ctx.excess x)
  unfold fit
  rw [if_neg hc]
  dsimp only
  generalize halfEvenDiv x.coeff (10 ^ ctx.excess x) = kept at *
  by_cases hmany : ctx.prec < numDigits kept
  · have hne : kept ≠ 0 := by
      rintro rfl
      have hone : numDigits 0 = 1 := rfl
      omega
    have hnum : numDigits (kept / 10) ≤ numDigits kept - 1 := by
      have hlt := lt_pow_numDigits kept
      apply (numDigits_le_iff (by omega)).mpr
      rw [Nat.div_lt_iff_lt_mul (by decide), ← pow_succ, Nat.sub_add_cancel (by omega)]
      exact hlt
    have hkept := hexp hne
    have htenth : 2 * (kept / 10) < 10 ^ (-(x.exp + ctx.excess x + 1)).toNat := by
      have hsucc : (-(x.exp + ctx.excess x)).toNat = (-(x.exp + ctx.excess x + 1)).toNat + 1 := by omega
      rw [hsucc, pow_succ] at hhalf
      omega
    rw [if_pos hmany, if_neg (by dsimp only; omega)]
    refine ⟨_, rfl, quantizeUnit_tiny fun _ => ⟨?_, htenth⟩⟩
    dsimp only
    omega
  · rw [if_neg hmany, if_neg]
    · exact ⟨_, rfl, quantizeUnit_tiny fun hne => ⟨hexp hne, hhalf⟩⟩
    · rintro ⟨hne, hover⟩
      have := hexp hne
      dsimp only at hover
      omega

theorem width_tiny (h : x.exp + numDigits x.coeff < 0) : ctx.width x ≤ 0 := by
  unfold Context.width
  split_ifs <;> omega

/-- **When the arithmetic overflows.** -/
theorem fit_eq_none_iff (hc : x.coeff ≠ 0) : ctx.fit x = none ↔ ctx.emax < ctx.width x - 1 := by
  rcases Int.lt_or_le (x.exp + numDigits x.coeff) 0 with htiny | hlarge
  · have hfits : ∃ y, ctx.fit x = some y ∧ ctx.quantizeUnit y = some 0 := fit_tiny hc htiny
    obtain ⟨y, hfit, _⟩ := hfits
    have hprec := ctx.prec_le
    have hwidth : ctx.width x ≤ 0 := width_tiny htiny
    rw [hfit]
    exact iff_of_false (by simp) (by omega)
  · have hfits : ∃ y, Fitted ctx x y ∧ ctx.fit x = if ctx.emax < ctx.width x - 1 then none else some y := fit_eq hc hlarge
    obtain ⟨y, _, hfit⟩ := hfits
    rw [hfit]
    split_ifs with hover
    · exact iff_of_true rfl hover
    · exact iff_of_false (by simp) hover

/-- The two roundings of a number that has no more digits before the point than the precision allows. -/
theorem units_eq_iff (hwidth : ctx.width x ≤ ctx.prec) :
    scaledHalfUp (halfEvenDiv x.coeff (10 ^ ctx.beyond x.coeff)) (x.exp + ctx.beyond x.coeff) =
      scaledHalfUp x.coeff x.exp ↔ ¬ ctx.Spoiled x := by
  by_cases hk : 0 < ctx.beyond x.coeff
  · have hdigits := numDigits_eq_add hk
    have hexp : x.exp + ctx.beyond x.coeff ≤ 0 := by
      unfold Context.width at hwidth
      split_ifs at hwidth <;> omega
    obtain ⟨m, hm⟩ : ∃ m : ℕ, x.exp + ctx.beyond x.coeff = -(m : ℤ) := ⟨(-(x.exp + ctx.beyond x.coeff)).toNat, by omega⟩
    have hmnat : (-(x.exp + ctx.beyond x.coeff)).toNat = m := by omega
    have hexact : scaledHalfUp x.coeff x.exp = halfUpDiv x.coeff (10 ^ ctx.beyond x.coeff * 10 ^ m) := by
      unfold scaledHalfUp
      rw [if_neg (by omega), ← pow_add, show (-x.exp).toNat = ctx.beyond x.coeff + m by omega]
    unfold Spoiled
    dsimp only
    rw [hexact, hmnat, hm]
    by_cases hzero : m = 0
    · subst hzero
      have hunit : scaledHalfUp (halfEvenDiv x.coeff (10 ^ ctx.beyond x.coeff)) (-((0 : ℕ) : ℤ)) =
          halfEvenDiv x.coeff (10 ^ ctx.beyond x.coeff) := by
        unfold scaledHalfUp
        simp
      rw [hunit, pow_zero, Nat.mul_one, halfEvenDiv_eq_halfUpDiv_iff, if_pos rfl]
      simp [hk]
    · have heven : 2 * (10 ^ m / 2) = 10 ^ m := Nat.mul_div_cancel' (dvd_pow (by decide : 2 ∣ 10) hzero)
      have hpos : 0 < 10 ^ m := Nat.pow_pos (by decide)
      have hunit : scaledHalfUp (halfEvenDiv x.coeff (10 ^ ctx.beyond x.coeff)) (-(m : ℤ)) =
          halfUpDiv (halfEvenDiv x.coeff (10 ^ ctx.beyond x.coeff)) (10 ^ m) := by
        unfold scaledHalfUp
        rw [if_neg (by omega), neg_neg, Int.toNat_natCast]
      have htwice := halfUpDiv_halfEvenDiv_iff (c := x.coeff) (b := 10 ^ ctx.beyond x.coeff) (h := 10 ^ m / 2)
        (Nat.pow_pos (by decide)) (by omega)
      rw [heven] at htwice
      rw [hunit, htwice, if_neg hzero, not_iff_not]
      constructor
      · rintro ⟨hlast, hup⟩
        exact ⟨hk, by omega, hup⟩
      · rintro ⟨_, hlast, hup⟩
        exact ⟨by omega, hup⟩
  · have hzero : ctx.beyond x.coeff = 0 := by omega
    rw [hzero, pow_zero, halfEvenDiv_one, Nat.cast_zero, add_zero]
    exact iff_of_true rfl fun h => hk h.1

theorem halfUpDiv_pos {a b : ℕ} (ha : 0 < a) (h : b ≤ 2 * a) : 0 < halfUpDiv a b := by
  unfold halfUpDiv
  split_ifs with hhalf
  · by_contra hzero
    have hlt : a < b := by
      rcases Nat.eq_zero_or_pos b with rfl | hb
      · omega
      · exact (Nat.div_eq_zero_iff_lt hb).mp (Nat.eq_zero_of_not_pos hzero)
    rw [Nat.mod_eq_of_lt hlt] at hhalf
    omega
  · exact Nat.succ_pos _

/-- A number that is misled has units. -/
theorem units_pos (h : ctx.Spoiled x) :
    0 < scaledHalfUp (halfEvenDiv x.coeff (10 ^ ctx.beyond x.coeff)) (x.exp + ctx.beyond x.coeff) := by
  obtain ⟨hk, hcase⟩ := h
  have hkept := (Nat.pow_pos (by decide)).trans_le (kept_bounds hk).1
  unfold scaledHalfUp
  split_ifs with hexp
  · exact Nat.mul_pos hkept (Nat.pow_pos (by decide))
  · obtain ⟨hlast, hup⟩ : 2 * (x.coeff / 10 ^ ctx.beyond x.coeff % 10 ^ (-(x.exp + ctx.beyond x.coeff)).toNat + 1) =
        10 ^ (-(x.exp + ctx.beyond x.coeff)).toNat ∧ RoundsUp x.coeff (10 ^ ctx.beyond x.coeff) := by
      rwa [if_neg (by omega)] at hcase
    apply halfUpDiv_pos hkept
    have hmod := Nat.mod_le (x.coeff / 10 ^ ctx.beyond x.coeff) (10 ^ (-(x.exp + ctx.beyond x.coeff)).toNat)
    rw [halfEvenDiv_eq, if_pos hup]
    omega

/-- A fitted number is quantized as the units of its digits, if these are not too many. -/
theorem Fitted.quantizeUnit {y : Numeral} (h : Fitted ctx x y) : ctx.quantizeUnit y =
    if ctx.prec < ctx.width x then none
    else some ((if x.negative then -1 else 1) * (scaledHalfUp y.coeff y.exp : ℤ)) := by
  have hunits : numDigits (scaledHalfUp y.coeff y.exp) ≤ ctx.prec ∨ ctx.prec < ctx.width x := by
    by_contra hnot
    rw [not_or, not_le, not_lt] at hnot
    obtain ⟨hmany, hfew⟩ := hnot
    have hlt : scaledHalfUp y.coeff y.exp < 10 ^ ctx.prec := by
      unfold scaledHalfUp
      split_ifs with he
      · calc y.coeff * 10 ^ y.exp.toNat < 10 ^ numDigits y.coeff * 10 ^ y.exp.toNat :=
              Nat.mul_lt_mul_of_pos_right (lt_pow_numDigits _) (Nat.pow_pos (by decide))
          _ = 10 ^ (numDigits y.coeff + y.exp.toNat) := (pow_add _ _ _).symm
          _ ≤ 10 ^ ctx.prec := Nat.pow_le_pow_right (by decide) (by have := h.width; omega)
      · calc halfUpDiv y.coeff (10 ^ (-y.exp).toNat) ≤ y.coeff := halfUpDiv_le _ (Nat.pow_pos (by decide))
          _ < 10 ^ numDigits y.coeff := lt_pow_numDigits _
          _ ≤ 10 ^ ctx.prec := Nat.pow_le_pow_right (by decide) h.digits
    exact absurd ((numDigits_le_iff ctx.prec_pos).mpr hlt) (not_le.mpr hmany)
  unfold Context.quantizeUnit
  rw [if_neg h.ne_zero, h.width, h.negative]
  by_cases hwide : (ctx.prec : ℤ) < ctx.width x
  · rw [if_pos hwide, if_pos hwide]
  · rw [if_neg hwide, if_neg hwide, if_neg (not_lt.mpr (hunits.resolve_right hwide))]

/-- **Fitting and quantizing.** The number is refused if it has more digits before the point than the precision allows.
    Otherwise its sign is kept, and its units are those of the exact number unless it is spoiled; then there are some. -/
theorem quantize_fit {y : Numeral} (hc : x.coeff ≠ 0) (h : ctx.fit x = some y) :
    (ctx.quantizeUnit y = none ↔ ctx.prec < ctx.width x) ∧
      ∀ n, ctx.quantizeUnit y = some n → ∃ units : ℕ, n = (if x.negative then -1 else 1) * (units : ℤ) ∧
        (units = scaledHalfUp x.coeff x.exp ↔ ¬ ctx.Spoiled x) ∧ (ctx.Spoiled x → 0 < units) := by
  rcases Int.lt_or_le (x.exp + numDigits x.coeff) 0 with htiny | hlarge
  · have hfits : ∃ y, ctx.fit x = some y ∧ ctx.quantizeUnit y = some 0 := fit_tiny hc htiny
    have hwidth : ctx.width x ≤ 0 := width_tiny htiny
    obtain ⟨y', hfit, hquantize⟩ := hfits
    rw [h] at hfit
    obtain rfl := Option.some.inj hfit
    rw [hquantize]
    refine ⟨iff_of_false (by simp) (by omega), ?_⟩
    rintro n hn
    refine ⟨0, by simpa using (Option.some.inj hn).symm, ?_⟩
    -- nothing of a tiny number is left by either rounding
    have hbeyond : ctx.beyond x.coeff ≤ numDigits x.coeff := Nat.sub_le _ _
    have hkept := scaledHalfUp_of_lt (by omega) (tiny_kept htiny (ctx.beyond x.coeff)).1
    have hunits : _ ↔ ¬ ctx.Spoiled x := units_eq_iff (by omega)
    rw [hkept] at hunits
    refine ⟨hunits, fun hspoiled => ?_⟩
    have hpos := units_pos hspoiled
    omega
  · have hfits : ∃ y, Fitted ctx x y ∧ ctx.fit x = if ctx.emax < ctx.width x - 1 then none else some y := fit_eq hc hlarge
    obtain ⟨y', hy', hfit⟩ := hfits
    rw [h] at hfit
    split_ifs at hfit
    obtain rfl := Option.some.inj hfit
    rw [hy'.quantizeUnit]
    by_cases hwide : (ctx.prec : ℤ) < ctx.width x
    · rw [if_pos hwide]
      exact ⟨iff_of_true rfl hwide, fun n hn => by cases hn⟩
    · rw [if_neg hwide]
      refine ⟨iff_of_false (by simp) hwide, ?_⟩
      intro n hn
      refine ⟨_, (Option.some.inj hn).symm, ?_⟩
      rw [hy'.units]
      exact ⟨units_eq_iff (by omega), units_pos⟩

end Context

end Lib
