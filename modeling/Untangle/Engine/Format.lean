import Untangle.Engine.Models
import Untangle.Lib.Decimal

/-!
# `Engine.Format` — dates and amounts, as the artifacts print them

Rupee amounts are paise over a hundred, exact here and floats in the source; two decimals show all of them.
-/

namespace Untangle

open Lib

/-! ## Dates -/

/-- `date.max.toordinal()`. -/
def lastOrdinal : Date := 3652059

/-- The days that a date can be. -/
def InCalendar (d : Date) : Prop := 1 ≤ d ∧ d ≤ lastOrdinal

instance (d : Date) : Decidable (InCalendar d) := inferInstanceAs (Decidable (_ ∧ _))

/-- Year, month and day of a proleptic ordinal. -/
def civilDate (d : Date) : ℤ × ℤ × ℤ :=
  let z := d + 305
  let era := z / 146097
  let doe := z % 146097
  let yoe := (doe - doe / 1460 + doe / 36524 - doe / 146096) / 365
  let doy := doe - (365 * yoe + yoe / 4 - yoe / 100)
  let mp := (5 * doy + 2) / 153
  let day := doy - (153 * mp + 2) / 5 + 1
  let month := if mp < 10 then mp + 3 else mp - 9
  (yoe + era * 400 + (if month ≤ 2 then 1 else 0), month, day)

/-- `d.isoformat()`. -/
def isoDate (d : Date) : String :=
  let (year, month, day) := civilDate d
  padDigits 4 year.natAbs ++ "-" ++ padDigits 2 month.natAbs ++ "-" ++ padDigits 2 day.natAbs

/-! ## Amounts -/

/-- Rupees with two decimals. -/
def inr (paise : ℤ) : String := formatFixed 2 ((paise : ℚ) / 100)

/-- `f"{paise / 100:,.2f}"`. -/
def inrGrouped (paise : ℤ) : String := formatGrouped 2 ((paise : ℚ) / 100)

/-- `_format_inr`: paise with sign and currency symbol. -/
def formatInr (paise : ℤ) : String :=
  (if paise < 0 then "-" else if 0 < paise then "+" else "") ++ "₹" ++ inrGrouped |paise|

end Untangle
