import Untangle.Lib.Binary64

/-!
# `Lib.DecimalDigits` — the decimal digits of an alphabet

A text may write its numbers with the digits of any script. Which code points are decimal digits is a table; on ASCII
it says what it must, so a number written with ASCII digits is read as itself (`number_of_isDigit`).
-/

namespace Lib

/-- Which code points are decimal digits, and the digit each one is. -/
structure DecimalDigits where
  value : Char → Option Nat
  lt_ten : ∀ c n, value c = some n → n < 10
  ascii : ∀ c : Char, c.toNat < 128 → value c = if c.isDigit then some (c.toNat - 48) else none

/-- The digits of ASCII, and no others. -/
def asciiDigits : DecimalDigits where
  value c := if c.isDigit then some (c.toNat - 48) else none
  lt_ten c n h := by
    split at h
    · rename_i hdigit
      have hbounds : 48 ≤ c.toNat ∧ c.toNat ≤ 57 := Char.isDigit_iff_toNat.mp hdigit
      obtain rfl := Option.some.inj h
      omega
    · cases h
  ascii _ _ := rfl

namespace DecimalDigits

variable (D : DecimalDigits)

def isDecimal (c : Char) : Bool := (D.value c).isSome

/-- The number a run of digits stands for. -/
def number (cs : List Char) : Nat := cs.foldl (fun n c => n * 10 + (D.value c).getD 0) 0

variable {D}

theorem value_of_isDigit {c : Char} (h : c.isDigit = true) : D.value c = some (c.toNat - 48) := by
  have hbounds : 48 ≤ c.toNat ∧ c.toNat ≤ 57 := Char.isDigit_iff_toNat.mp h
  rw [D.ascii c (by omega), if_pos h]

theorem isDecimal_of_isDigit {c : Char} (h : c.isDigit = true) : D.isDecimal c = true := by
  unfold isDecimal
  rw [value_of_isDigit h]
  rfl

theorem isDecimal_ascii {c : Char} (h : c.toNat < 128) : D.isDecimal c = c.isDigit := by
  unfold isDecimal
  rw [D.ascii c h]
  split
  · rename_i hdigit
    rw [hdigit]
    rfl
  · rename_i hdigit
    rw [Bool.not_eq_true] at hdigit
    rw [hdigit]
    rfl

/-- ASCII digits are read as they are written. -/
theorem number_of_isDigit {cs : List Char} (h : ∀ c ∈ cs, c.isDigit = true) :
    D.number cs = Nat.ofDigitChars 10 cs 0 := by
  have hfrom : ∀ n, cs.foldl (fun n c => n * 10 + (D.value c).getD 0) n = Nat.ofDigitChars 10 cs n := by
    induction cs with
    | nil => exact fun n => rfl
    | cons c cs ih =>
        intro n
        rw [List.foldl_cons, value_of_isDigit (h c List.mem_cons_self), Option.getD_some,
          ih fun d hd => h d (List.mem_cons_of_mem c hd), Nat.mul_comm n]
        rfl
  exact hfrom 0

end DecimalDigits

end Lib
