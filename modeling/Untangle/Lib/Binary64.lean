import Mathlib.Data.Int.Log
import Mathlib.Tactic.Push
import Untangle.Lib.Decimal
import Untangle.Lib.Printed

/-!
# `Lib.Binary64` — double-precision numbers and their decimal texts

A double is a rational with 53 significant bits. `nearest` rounds an exact rational to the closest one, ties to even;
`Float64.ofRat` adds the overflow to an infinity. An operation on doubles is the exact operation followed by
`ofRat`. `readFloat` reads the text of a number.

What a client needs is how far a rounding can go (`abs_nearest_sub_lt`), that a double is rounded to itself
(`nearest_nearest`), that rounding is monotone (`nearest_mono`), that an integer is recovered from anything closer to
it than one half (`roundHalfEven_of_near`), and that a fixed-point text is read as the number it shows (`readFloat_formatGrouped`).
-/

namespace Lib

/-! ## Rounding to 53 bits -/

/-- The distance between the doubles around `q`. -/
def ulp (q : ℚ) : ℚ := 2 ^ max (Int.log 2 |q| - 52) (-1074)

/-- The double closest to `q`, with an unbounded exponent. -/
def nearest (q : ℚ) : ℚ := if q = 0 then 0 else roundHalfEven (q / ulp q) * ulp q

/-- The largest finite double. -/
def maxFinite : ℚ := (2 ^ 53 - 1) * 2 ^ 971

inductive Float64
  | finite (q : ℚ)
  | inf (negative : Bool)
  | nan
deriving DecidableEq, Repr

/-- The correctly rounded double. -/
def Float64.ofRat (q : ℚ) : Float64 := if |nearest q| ≤ maxFinite then .finite (nearest q) else .inf (q < 0)

theorem ulp_pos (q : ℚ) : 0 < ulp q := zpow_pos (by norm_num) _

theorem ulp_le {q : ℚ} {k : ℤ} (hne : q ≠ 0) (hk : -1021 ≤ k) (hq : |q| < 2 ^ k) : ulp q ≤ 2 ^ (k - 53) := by
  have hlog : Int.log 2 |q| < k :=
    (Int.lt_zpow_iff_log_lt (by norm_num) (abs_pos.mpr hne)).mp (by exact_mod_cast hq)
  unfold ulp
  apply zpow_le_zpow_right₀ (by norm_num)
  apply max_le <;> omega

/-- Rounding to an integer moves by one half at most. -/
theorem abs_roundHalfEven_sub_le (q : ℚ) : |roundHalfEven q - q| ≤ 1 / 2 := by
  have hle := Int.floor_le q
  have hlt := Int.lt_floor_add_one q
  unfold roundHalfEven
  split_ifs <;> push_cast <;> rw [abs_le] <;> constructor <;> linarith

/-- **Rounding moves by half a unit at most.** -/
theorem abs_nearest_sub_le (q : ℚ) : |nearest q - q| ≤ ulp q / 2 := by
  have hpos := ulp_pos q
  unfold nearest
  split
  · rename_i hzero
    rw [hzero, sub_zero, abs_zero]
    exact (half_pos (ulp_pos 0)).le
  · calc |roundHalfEven (q / ulp q) * ulp q - q|
        = |(roundHalfEven (q / ulp q) - q / ulp q) * ulp q| := by rw [sub_mul, div_mul_cancel₀ q hpos.ne']
      _ = |roundHalfEven (q / ulp q) - q / ulp q| * ulp q := by rw [abs_mul, abs_of_pos hpos]
      _ ≤ 1 / 2 * ulp q := mul_le_mul_of_nonneg_right (abs_roundHalfEven_sub_le _) hpos.le
      _ = ulp q / 2 := by ring

/-- **An integer is recovered** from anything closer to it than one half. -/
theorem roundHalfEven_of_near {q : ℚ} {k : ℤ} (h : |q - k| < 1 / 2) : roundHalfEven q = k := by
  have hround := abs_roundHalfEven_sub_le q
  have hdist : |((roundHalfEven q - k : ℤ) : ℚ)| < 1 := by
    calc |((roundHalfEven q - k : ℤ) : ℚ)| = |(roundHalfEven q - q) + (q - k)| := by
          push_cast
          congr 1
          ring
      _ ≤ |roundHalfEven q - q| + |q - k| := abs_add_le _ _
      _ < 1 := by linarith
  have hint : |roundHalfEven q - k| < 1 := by exact_mod_cast hdist
  have hzero := Int.abs_lt_one_iff.mp hint
  omega

/-- The same in terms of a bound on the number. -/
theorem abs_nearest_sub_lt {q : ℚ} {k : ℤ} (hk : -1021 ≤ k) (hq : |q| < 2 ^ k) :
    |nearest q - q| ≤ 2 ^ (k - 53) / 2 := by
  by_cases hne : q = 0
  · rw [hne, nearest, if_pos rfl, sub_zero, abs_zero]
    exact div_nonneg (zpow_nonneg (by norm_num) _) (by norm_num)
  · exact (abs_nearest_sub_le q).trans (div_le_div_of_nonneg_right (ulp_le hne hk hq) (by norm_num))

theorem abs_nearest_lt {q : ℚ} {k : ℤ} (hk : -1021 ≤ k) (hq : |q| < 2 ^ k) : |nearest q| < 2 ^ (k + 1) := by
  have hnear := abs_nearest_sub_lt hk hq
  have hpos : (0 : ℚ) < 2 ^ k := zpow_pos (by norm_num) k
  have hsmall : (2 : ℚ) ^ (k - 53) / 2 ≤ 2 ^ k :=
    (half_le_self (zpow_nonneg (by norm_num) _)).trans (zpow_le_zpow_right₀ (by norm_num) (by omega))
  calc |nearest q| = |(nearest q - q) + q| := by rw [sub_add_cancel]
    _ ≤ |nearest q - q| + |q| := abs_add_le _ _
    _ < 2 ^ k + 2 ^ k := add_lt_add_of_le_of_lt (hnear.trans hsmall) hq
    _ = 2 ^ (k + 1) := by rw [zpow_add_one₀ (by norm_num), mul_two]

/-- A number far below the largest double does not overflow. -/
theorem Float64.ofRat_of_lt {q : ℚ} (hq : |q| < 2 ^ (970 : ℤ)) : Float64.ofRat q = .finite (nearest q) := by
  apply if_pos
  calc |nearest q| ≤ 2 ^ ((970 : ℤ) + 1) := (abs_nearest_lt (by norm_num) hq).le
    _ = 2 ^ 971 := zpow_natCast 2 971
    _ ≤ maxFinite := le_mul_of_one_le_left (by positivity) (by norm_num)

/-! ### Doubles are fixed points -/

/-- The significand has 53 bits. -/
theorem abs_roundHalfEven_div_ulp_le (q : ℚ) : |roundHalfEven (q / ulp q)| ≤ 2 ^ 53 := by
  have hpos := ulp_pos q
  have hlt : |q / ulp q| < 2 ^ 53 := by
    rw [abs_div, abs_of_pos hpos, div_lt_iff₀ hpos]
    have hlog : |q| < (2 : ℚ) ^ (Int.log 2 |q| + 1) := by
      exact_mod_cast Int.lt_zpow_succ_log_self (by norm_num : 1 < 2) |q|
    refine hlog.trans_le ?_
    unfold ulp
    calc (2 : ℚ) ^ (Int.log 2 |q| + 1) ≤ 2 ^ (53 + max (Int.log 2 |q| - 52) (-1074)) :=
          zpow_le_zpow_right₀ (by norm_num) (by omega)
      _ = 2 ^ 53 * 2 ^ max (Int.log 2 |q| - 52) (-1074) := by rw [zpow_add₀ (by norm_num)]; norm_num
  have hround := abs_roundHalfEven_sub_le (q / ulp q)
  have hnear : |(roundHalfEven (q / ulp q) : ℚ)| < 2 ^ 53 + 1 := by
    calc |(roundHalfEven (q / ulp q) : ℚ)|
        = |(roundHalfEven (q / ulp q) - q / ulp q) + q / ulp q| := by rw [sub_add_cancel]
      _ ≤ |roundHalfEven (q / ulp q) - q / ulp q| + |q / ulp q| := abs_add_le _ _
      _ < 2 ^ 53 + 1 := by linarith
  have hint : |roundHalfEven (q / ulp q)| < 2 ^ 53 + 1 := by exact_mod_cast hnear
  omega

/-- A double is an integer of its own units. -/
theorem exists_nearest_eq_mul_ulp (q : ℚ) : ∃ m : ℤ, nearest q = m * ulp (nearest q) := by
  by_cases hq : q = 0
  · exact ⟨0, by rw [hq, nearest, if_pos rfl, Int.cast_zero, zero_mul]⟩
  have hnearest : nearest q = roundHalfEven (q / ulp q) * ulp q := if_neg hq
  have hbits := abs_roundHalfEven_div_ulp_le q
  rw [hnearest]
  generalize roundHalfEven (q / ulp q) = k at hbits
  obtain ⟨e, he, hmin⟩ : ∃ e : ℤ, ulp q = 2 ^ e ∧ -1074 ≤ e := ⟨_, rfl, le_max_right _ _⟩
  rw [he]
  by_cases hk : k = 0
  · exact ⟨0, by rw [hk, Int.cast_zero, zero_mul, zero_mul]⟩
  have hr : (k : ℚ) * 2 ^ e ≠ 0 := mul_ne_zero (Int.cast_ne_zero.mpr hk) (zpow_ne_zero _ (by norm_num))
  have habs : |(k : ℚ) * 2 ^ e| = |(k : ℚ)| * 2 ^ e := by
    rw [abs_mul, abs_of_pos (zpow_pos (by norm_num : (0 : ℚ) < 2) e)]
  have hcast : |(k : ℚ)| ≤ 2 ^ 53 := by exact_mod_cast hbits
  obtain ⟨e', he', hle, hodd⟩ : ∃ e' : ℤ, ulp ((k : ℚ) * 2 ^ e) = 2 ^ e' ∧ e' ≤ e + 1 ∧ (e' = e + 1 → |k| = 2 ^ 53) := by
    refine ⟨_, rfl, ?_, ?_⟩
    · have hlog : Int.log 2 |(k : ℚ) * 2 ^ e| < e + 54 := by
        refine (Int.lt_zpow_iff_log_lt (by norm_num) (abs_pos.mpr hr)).mp ?_
        rw [habs]
        calc |(k : ℚ)| * 2 ^ e ≤ 2 ^ 53 * 2 ^ e := mul_le_mul_of_nonneg_right hcast (zpow_pos (by norm_num) e).le
          _ < 2 ^ 54 * 2 ^ e := mul_lt_mul_of_pos_right (by norm_num) (zpow_pos (by norm_num) e)
          _ = ((2 : ℕ) : ℚ) ^ (e + 54) := by rw [zpow_add₀ (by norm_num)]; norm_num; ring
      omega
    · intro hmax
      have hlog : e + 53 ≤ Int.log 2 |(k : ℚ) * 2 ^ e| := by omega
      have hbig := (Int.zpow_le_iff_le_log (by norm_num : 1 < 2) (abs_pos.mpr hr)).mpr hlog
      rw [habs] at hbig
      have hbig' : (2 : ℚ) ^ 53 ≤ |(k : ℚ)| := by
        have hpow : ((2 : ℕ) : ℚ) ^ (e + 53) = 2 ^ 53 * 2 ^ e := by rw [zpow_add₀ (by norm_num)]; norm_num; ring
        rw [hpow] at hbig
        exact le_of_mul_le_mul_right hbig (zpow_pos (by norm_num) e)
      have hint : 2 ^ 53 ≤ |k| := by exact_mod_cast hbig'
      omega
  rw [he']
  rcases hle.lt_or_eq with hlt | heq
  · refine ⟨k * 2 ^ (e - e').toNat, ?_⟩
    have hnat : ((e - e').toNat : ℤ) = e - e' := Int.toNat_of_nonneg (by omega)
    push_cast
    rw [← zpow_natCast, hnat, mul_assoc, ← zpow_add₀ (by norm_num), sub_add_cancel]
  · obtain ⟨m, rfl⟩ : 2 ∣ k := by
      have habs := hodd heq
      have hdvd : (2 : ℤ) ∣ |k| := by rw [habs]; norm_num
      exact (dvd_abs 2 k).mp hdvd
    refine ⟨m, ?_⟩
    rw [heq, zpow_add_one₀ (by norm_num)]
    push_cast
    ring

/-- **A double is rounded to itself.** -/
theorem nearest_nearest (q : ℚ) : nearest (nearest q) = nearest q := by
  obtain ⟨m, hm⟩ := exists_nearest_eq_mul_ulp q
  by_cases hzero : nearest q = 0
  · rw [hzero, nearest, if_pos rfl]
  · have hdiv : nearest q / ulp (nearest q) = m := by
      rw [div_eq_iff (ulp_pos _).ne']
      exact hm
    rw [nearest, if_neg hzero, hdiv, roundHalfEven_intCast, ← hm]

theorem Float64.ofRat_of_finite {q r : ℚ} (h : Float64.ofRat q = .finite r) : Float64.ofRat r = .finite r := by
  unfold Float64.ofRat at h
  split at h
  · rename_i hfinite
    obtain rfl := Float64.finite.inj h
    unfold Float64.ofRat
    rw [nearest_nearest, if_pos hfinite]
  · cases h

/-! ### Rounding is monotone -/

theorem nearest_of_pos {q : ℚ} (hq : 0 < q) : nearest q = roundHalfEven (q / ulp q) * ulp q := if_neg hq.ne'

theorem nearest_nonneg {q : ℚ} (hq : 0 ≤ q) : 0 ≤ nearest q := by
  rcases hq.eq_or_lt with rfl | hpos
  · rw [nearest, if_pos rfl]
  · rw [nearest_of_pos hpos]
    have hround : (0 : ℤ) ≤ roundHalfEven (q / ulp q) := by
      rw [← roundHalfEven_intCast 0]
      exact roundHalfEven_mono (by push_cast; exact (div_pos hpos (ulp_pos q)).le)
    exact mul_nonneg (by exact_mod_cast hround) (ulp_pos q).le

/-- **Rounding is monotone.** -/
theorem nearest_mono {p q : ℚ} (hp : 0 ≤ p) (hpq : p ≤ q) : nearest p ≤ nearest q := by
  rcases hp.eq_or_lt with rfl | hpos
  · rw [nearest, if_pos rfl]
    exact nearest_nonneg hpq
  have hqpos : 0 < q := hpos.trans_le hpq
  have hlogs : Int.log 2 p ≤ Int.log 2 q := Int.log_mono_right hpos hpq
  have hulp : ∀ r : ℚ, 0 < r → ulp r = 2 ^ max (Int.log 2 r - 52) (-1074) := by
    intro r hr
    rw [ulp, abs_of_pos hr]
  rw [nearest_of_pos hpos, nearest_of_pos hqpos]
  by_cases hsame : max (Int.log 2 p - 52) (-1074) = max (Int.log 2 q - 52) (-1074)
  · have heq : ulp p = ulp q := by rw [hulp p hpos, hulp q hqpos, hsame]
    rw [heq]
    have hround : roundHalfEven (p / ulp q) ≤ roundHalfEven (q / ulp q) :=
      roundHalfEven_mono (div_le_div_of_nonneg_right hpq (ulp_pos q).le)
    exact mul_le_mul_of_nonneg_right (by exact_mod_cast hround) (ulp_pos q).le
  · -- A power of two lies between the two, and rounding does not cross it.
    have hbetween : ∀ r : ℚ, ∀ e : ℤ, ulp r = 2 ^ e → e ≤ Int.log 2 q →
        (2 : ℚ) ^ Int.log 2 q = ((2 ^ (Int.log 2 q - e).toNat : ℤ) : ℚ) * ulp r := by
      intro r e he hle
      have hnat : (((Int.log 2 q - e).toNat : ℕ) : ℤ) = Int.log 2 q - e := Int.toNat_of_nonneg (by omega)
      rw [he]
      push_cast
      rw [← zpow_natCast, hnat, ← zpow_add₀ (by norm_num), sub_add_cancel]
    have hplt : p ≤ 2 ^ Int.log 2 q := by
      have hlt := Int.lt_zpow_succ_log_self (by norm_num : 1 < 2) p
      refine (by exact_mod_cast hlt.le : p ≤ (2 : ℚ) ^ (Int.log 2 p + 1)).trans ?_
      exact zpow_le_zpow_right₀ (by norm_num) (by omega)
    have hqge : (2 : ℚ) ^ Int.log 2 q ≤ q := by exact_mod_cast Int.zpow_log_le_self (by norm_num : 1 < 2) hqpos
    have hpower := hbetween p _ (hulp p hpos) (by omega)
    have hpower' := hbetween q _ (hulp q hqpos) (by omega)
    have hlow : roundHalfEven (p / ulp p) ≤ 2 ^ (Int.log 2 q - max (Int.log 2 p - 52) (-1074)).toNat := by
      rw [← roundHalfEven_intCast (2 ^ _)]
      refine roundHalfEven_mono ?_
      rw [div_le_iff₀ (ulp_pos p), ← hpower]
      exact hplt
    have hhigh : 2 ^ (Int.log 2 q - max (Int.log 2 q - 52) (-1074)).toNat ≤ roundHalfEven (q / ulp q) := by
      rw [← roundHalfEven_intCast (2 ^ (Int.log 2 q - max (Int.log 2 q - 52) (-1074)).toNat)]
      refine roundHalfEven_mono ?_
      rw [le_div_iff₀ (ulp_pos q), ← hpower']
      exact hqge
    calc (roundHalfEven (p / ulp p) : ℚ) * ulp p
        ≤ ((2 ^ (Int.log 2 q - max (Int.log 2 p - 52) (-1074)).toNat : ℤ) : ℚ) * ulp p :=
          mul_le_mul_of_nonneg_right (by exact_mod_cast hlow) (ulp_pos p).le
      _ = 2 ^ Int.log 2 q := hpower.symm
      _ = ((2 ^ (Int.log 2 q - max (Int.log 2 q - 52) (-1074)).toNat : ℤ) : ℚ) * ulp q := hpower'
      _ ≤ roundHalfEven (q / ulp q) * ulp q :=
          mul_le_mul_of_nonneg_right (by exact_mod_cast hhigh) (ulp_pos q).le

/-! ### Hundredths

An integer below `2 ^ 50` survives its hundredth being rounded, shown with two decimals, read back and multiplied. -/

theorem abs_nearest_hundredth_sub_le {k : ℤ} (hk : |k| < 2 ^ 50) :
    |nearest ((k : ℚ) / 100) - (k : ℚ) / 100| ≤ 1 / 1024 := by
  have hcast : |(k : ℚ)| < 2 ^ 50 := by exact_mod_cast hk
  have hlt : |(k : ℚ) / 100| < 2 ^ (44 : ℤ) := by
    rw [abs_div, abs_of_pos (by norm_num : (0 : ℚ) < 100), div_lt_iff₀ (by norm_num)]
    exact hcast.trans (by norm_num)
  exact (abs_nearest_sub_lt (by norm_num) hlt).trans (by norm_num)

theorem nearest_hundredth_neg_iff {k : ℤ} (hk : |k| < 2 ^ 50) : nearest ((k : ℚ) / 100) < 0 ↔ k < 0 := by
  obtain ⟨hlo, hhi⟩ := abs_le.mp (abs_nearest_hundredth_sub_le hk)
  constructor
  · intro hneg
    by_contra hnot
    rcases (not_lt.mp hnot).eq_or_lt with hzero | hpos
    · rw [← hzero, Int.cast_zero, zero_div, nearest, if_pos rfl] at hneg
      exact lt_irrefl _ hneg
    · have hone : (1 : ℚ) ≤ k := by exact_mod_cast hpos
      linarith
  · intro hneg
    have hone : (k : ℚ) ≤ -1 := by exact_mod_cast Int.le_sub_one_of_lt hneg
    linarith

/-- The two decimals shown are those of the integer. -/
theorem roundHalfEven_hundredth {k : ℤ} (hk : |k| < 2 ^ 50) :
    roundHalfEven (nearest ((k : ℚ) / 100) * 10 ^ 2) = k := by
  obtain ⟨hlo, hhi⟩ := abs_le.mp (abs_nearest_hundredth_sub_le hk)
  apply roundHalfEven_of_near
  rw [abs_lt]
  constructor <;> linarith

/-- The double of the hundredth, multiplied back. -/
theorem roundHalfEven_nearest_hundredth {k : ℤ} (hk : |k| < 2 ^ 50) :
    roundHalfEven (nearest (nearest ((k : ℚ) / 100) * 100)) = k := by
  have hcast : |(k : ℚ)| < 2 ^ 50 := by exact_mod_cast hk
  obtain ⟨hk0, hk1⟩ := abs_lt.mp hcast
  obtain ⟨hlo, hhi⟩ := abs_le.mp (abs_nearest_hundredth_sub_le hk)
  have hlt : |nearest ((k : ℚ) / 100) * 100| < 2 ^ (51 : ℤ) := by
    rw [abs_lt]
    norm_num at hk0 hk1 ⊢
    constructor <;> linarith
  obtain ⟨hlo', hhi'⟩ := abs_le.mp (abs_nearest_sub_lt (by norm_num) hlt)
  apply roundHalfEven_of_near
  rw [abs_lt]
  norm_num at hlo' hhi'
  constructor <;> linarith

/-! ## Reading a number -/

/-- Underscores may stand between two digits; anywhere else they are an error. -/
def removeUnderscores (afterDigit : Bool) : List Char → Option (List Char)
  | [] => some []
  | c :: cs =>
    if c = '_' then
      if afterDigit && cs.head?.any Char.isDigit then removeUnderscores false cs else none
    else (removeUnderscores c.isDigit cs).map (c :: ·)

/-- A run of digits, at least one. -/
def readDigits (cs : List Char) : Option Nat :=
  if cs ≠ [] ∧ cs.all Char.isDigit then some (Nat.ofDigitChars 10 cs 0) else none

def readExponent : List Char → Option ℤ
  | '-' :: cs => (readDigits cs).map fun n => -(n : ℤ)
  | '+' :: cs => (readDigits cs).map fun n => (n : ℤ)
  | cs => (readDigits cs).map fun n => (n : ℤ)

/-- The digits after a decimal point, and what follows them. -/
def readFraction : List Char → List Char × List Char
  | '.' :: cs => cs.span Char.isDigit
  | cs => ([], cs)

/-- Digits with an optional point and an optional exponent. -/
def readMagnitude (cs : List Char) : Option ℚ :=
  let (whole, rest) := cs.span Char.isDigit
  let (fraction, rest) := readFraction rest
  let digits := whole ++ fraction
  let mantissa : ℚ := Nat.ofDigitChars 10 digits 0 / 10 ^ fraction.length
  if digits = [] then none
  else
    match rest with
    | [] => some mantissa
    | c :: exponent => if c = 'e' ∨ c = 'E' then (readExponent exponent).map fun k => mantissa * 10 ^ k else none

def readSpecial (negative : Bool) (cs : List Char) : Option Float64 :=
  let name := String.ofList (cs.map Char.toLower)
  if name = "inf" ∨ name = "infinity" then some (.inf negative)
  else if name = "nan" then some .nan
  else none

/-- A sign and what it stands before. -/
def readSign : List Char → Bool × List Char
  | '-' :: cs => (true, cs)
  | '+' :: cs => (false, cs)
  | cs => (false, cs)

/-- The text of a float without white space around it, ASCII digits. -/
def readFloat (text : String) : Option Float64 := do
  let cs ← removeUnderscores false text.toList
  let (negative, body) := readSign cs
  match readMagnitude body with
  | some m => return Float64.ofRat (if negative then -m else m)
  | none => readSpecial negative body

/-- The number that a plain decimal text shows, as it stands. -/
def readExact (text : String) : Option ℚ :=
  let (negative, body) := readSign text.toList
  (readMagnitude body).map fun m => if negative then -m else m

/-! ### Fixed-point texts -/

theorem removeUnderscores_of_not_mem {afterDigit : Bool} {cs : List Char} (h : '_' ∉ cs) :
    removeUnderscores afterDigit cs = some cs := by
  induction cs generalizing afterDigit with
  | nil => rfl
  | cons c cs ih =>
      rw [List.mem_cons, not_or] at h
      rw [removeUnderscores, if_neg (Ne.symm h.1), ih h.2]
      rfl

/-- A run is split off at its end. -/
theorem span_run {p : Char → Bool} {ds cs : List Char} (hds : ∀ d ∈ ds, p d = true)
    (hcs : ∀ c ∈ cs.head?, p c = false) : (ds ++ cs).span p = (ds, cs) := by
  rw [List.span_eq_takeWhile_dropWhile, List.takeWhile_append_of_pos hds, List.dropWhile_append_of_pos hds]
  cases cs with
  | nil => simp
  | cons c cs =>
      have hc := hcs c rfl
      rw [List.takeWhile_cons_of_neg (by simp [hc]), List.dropWhile_cons_of_neg (by simp [hc]), List.append_nil]

/-- Digits, a point, and digits. -/
theorem readMagnitude_fixed {whole fraction : List Char} (hwhole : ∀ d ∈ whole, d.isDigit = true)
    (hfraction : ∀ d ∈ fraction, d.isDigit = true) (hne : whole ≠ []) :
    readMagnitude (whole ++ '.' :: fraction) =
      some ((Nat.ofDigitChars 10 (whole ++ fraction) 0 : ℚ) / 10 ^ fraction.length) := by
  have hread : readFraction ('.' :: fraction) = (fraction, []) := by
    have hspan : (fraction ++ []).span Char.isDigit = (fraction, []) := span_run hfraction (by simp)
    rw [List.append_nil] at hspan
    exact hspan
  unfold readMagnitude
  rw [span_run hwhole (by simp)]
  dsimp only
  rw [hread]
  dsimp only
  rw [if_neg (fun h => hne (List.append_eq_nil_iff.mp h).1)]

theorem filter_groupDigits (ds : List Char) :
    (groupDigits ds).filter (· ≠ ',') = ds.filter (· ≠ ',') := by
  fun_induction groupDigits ds with
  | case1 a b c d ds ih => simp_all [List.filter_cons]
  | case2 ds => rfl

theorem isDigit_padDigits {width k : Nat} {c : Char} (h : c ∈ (padDigits width k).toList) : c.isDigit = true := by
  unfold padDigits at h
  rw [String.toList_append, List.mem_append, String.toList_ofList] at h
  rcases h with h | h
  · rw [List.eq_of_mem_replicate h]
    rfl
  · exact isDigit_of_mem_toString h

theorem ofDigitChars_toString (k : Nat) : Nat.ofDigitChars 10 (toString k).toList 0 = k := by
  rw [Nat.toString_eq_repr, Nat.toList_repr, Nat.ofDigitChars_ten_toDigits]

theorem ofDigitChars_padDigits (width k : Nat) : Nat.ofDigitChars 10 (padDigits width k).toList 0 = k := by
  unfold padDigits
  rw [String.toList_append, String.toList_ofList, Nat.ofDigitChars_append, Nat.ofDigitChars_replicate_zero,
    Nat.mul_zero, ofDigitChars_toString]

theorem length_padDigits {width k : Nat} (h : k < 10 ^ width) (hwidth : 0 < width) :
    (padDigits width k).toList.length = width := by
  have hlen : (toString k).toList.length ≤ width := by
    rw [Nat.toString_eq_repr, Nat.toList_repr]
    exact (Nat.length_toDigits_le_iff (by decide) hwidth).mpr h
  unfold padDigits
  rw [String.toList_append, String.toList_ofList, List.length_append, List.length_replicate, ← String.length_toList]
  omega

theorem filter_digits {ds : List Char} (hds : ∀ d ∈ ds, d.isDigit = true) : ds.filter (· ≠ ',') = ds := by
  apply List.filter_eq_self.mpr
  intro d hd
  have hdigit := hds d hd
  rw [decide_eq_true_eq]
  rintro rfl
  exact absurd hdigit (by decide)

/-- The characters of a grouped fixed-point text, without its commas. -/
theorem filter_formatGrouped (n : Nat) (q : ℚ) :
    (formatGrouped n q).toList.filter (· ≠ ',') = (if q < 0 then ['-'] else []) ++
      ((toString ((roundHalfEven (q * 10 ^ n)).natAbs / 10 ^ n)).toList ++
        '.' :: (padDigits n ((roundHalfEven (q * 10 ^ n)).natAbs % 10 ^ n)).toList) := by
  have hgroup : ∀ m : Nat, (groupDigits (toString m).toList.reverse).reverse.filter (· ≠ ',') =
      (toString m).toList := by
    intro m
    rw [List.filter_reverse, filter_groupDigits, List.filter_reverse, List.reverse_reverse,
      filter_digits fun _ => isDigit_of_mem_toString]
  have hsign : (if q < 0 then "-" else "").toList = if q < 0 then ['-'] else [] := by split <;> rfl
  unfold formatGrouped
  simp only [String.toList_append, String.toList_ofList, List.filter_append, hgroup, hsign,
    filter_digits fun _ => isDigit_padDigits]
  split <;> simp

theorem toString_ne_nil (n : Nat) : (toString n).toList ≠ [] := by
  rw [Nat.toString_eq_repr, Nat.toList_repr]
  exact Nat.toDigits_ne_nil

/-- What begins with a digit has no sign. -/
theorem readSign_digits {cs : List Char} (h : ∀ c ∈ cs.head?, c.isDigit = true) : readSign cs = (false, cs) := by
  cases cs with
  | nil => rfl
  | cons c cs =>
      have hc := h c rfl
      unfold readSign
      split
      · rename_i heq
        rw [(List.cons.inj heq).1] at hc
        exact absurd hc (by decide)
      · rename_i heq
        rw [(List.cons.inj heq).1] at hc
        exact absurd hc (by decide)
      · rfl

theorem head?_digits {whole cs : List Char} (hwhole : ∀ d ∈ whole, d.isDigit = true) (hne : whole ≠ []) :
    ∀ c ∈ (whole ++ cs).head?, c.isDigit = true := by
  cases whole with
  | nil => exact absurd rfl hne
  | cons d whole =>
      rintro c ⟨⟩
      exact hwhole d List.mem_cons_self

theorem readSign_signed {whole cs : List Char} (hwhole : ∀ d ∈ whole, d.isDigit = true) (hne : whole ≠ [])
    (negative : Bool) : readSign ((if negative then ['-'] else []) ++ (whole ++ cs)) = (negative, whole ++ cs) := by
  cases negative with
  | true => rfl
  | false =>
      show readSign (whole ++ cs) = _
      exact readSign_digits (head?_digits hwhole hne)

/-- A sign, digits, a point and digits. -/
theorem readFloat_signed {whole fraction : List Char} (hwhole : ∀ d ∈ whole, d.isDigit = true)
    (hfraction : ∀ d ∈ fraction, d.isDigit = true) (hne : whole ≠ []) (negative : Bool) :
    readFloat (String.ofList ((if negative then ['-'] else []) ++ (whole ++ '.' :: fraction))) =
      some (Float64.ofRat ((if negative then -1 else 1) *
        ((Nat.ofDigitChars 10 (whole ++ fraction) 0 : ℚ) / 10 ^ fraction.length))) := by
  have hdigit : ∀ {c : Char}, c.isDigit = true → c ≠ '_' := by
    rintro c hc rfl
    exact absurd hc (by decide)
  have hunderscore : '_' ∉ (if negative then ['-'] else []) ++ (whole ++ '.' :: fraction) := by
    simp only [List.mem_append, List.mem_cons, not_or]
    exact ⟨by split <;> simp, fun h => hdigit (hwhole _ h) rfl, by decide, fun h => hdigit (hfraction _ h) rfl⟩
  unfold readFloat
  rw [String.toList_ofList, removeUnderscores_of_not_mem hunderscore, Option.bind_eq_bind, Option.bind_some,
    readSign_signed hwhole hne]
  dsimp only
  rw [readMagnitude_fixed hwhole hfraction hne]
  cases negative <;> simp

/-- The digits before and after the point are those of the number without it. -/
theorem ofDigitChars_fixed {n : Nat} (hn : 0 < n) (m : Nat) :
    Nat.ofDigitChars 10 ((toString (m / 10 ^ n)).toList ++ (padDigits n (m % 10 ^ n)).toList) 0 = m := by
  rw [Nat.ofDigitChars_append, ofDigitChars_toString, Nat.ofDigitChars_eq_ofDigitChars_zero,
    ofDigitChars_padDigits, length_padDigits (Nat.mod_lt m (Nat.pow_pos (by decide))) hn, Nat.div_add_mod]

/-- **A grouped fixed-point text, without its commas, is read as the number it shows.** -/
theorem readFloat_formatGrouped {n : Nat} (hn : 0 < n) (q : ℚ) :
    readFloat (String.ofList ((formatGrouped n q).toList.filter (· ≠ ','))) =
      some (Float64.ofRat ((if q < 0 then -1 else 1) * ((roundHalfEven (q * 10 ^ n)).natAbs / 10 ^ n))) := by
  have hpow : 0 < 10 ^ n := Nat.pow_pos (by decide)
  have hread : ∀ (m : Nat) (negative : Bool), readFloat (String.ofList ((if negative then ['-'] else []) ++
      ((toString (m / 10 ^ n)).toList ++ '.' :: (padDigits n (m % 10 ^ n)).toList))) =
        some (Float64.ofRat ((if negative then -1 else 1) * ((m : ℚ) / 10 ^ n))) := by
    intro m negative
    rw [readFloat_signed (fun _ => isDigit_of_mem_toString) (fun _ => isDigit_padDigits) (toString_ne_nil _),
      ofDigitChars_fixed hn, length_padDigits (Nat.mod_lt _ hpow) hn]
  have hq := hread (roundHalfEven (q * 10 ^ n)).natAbs (decide (q < 0))
  rw [filter_formatGrouped]
  simpa only [decide_eq_true_eq] using hq

end Lib
