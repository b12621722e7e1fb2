import Untangle.Engine.Format
import Untangle.Lib.PrintedOrder

/-!
# `Correctness.Dates` — printed dates sort as dates

The year of a day is found by counting the leap days before it. Counted from March a day has a year and an offset in it
(`MarchDay`), and these are the digits of the day number in a mixed radix: a later day has a later year, or a later
offset in the same one. Months and days follow the offset, so the text of a later day is a later text
(`isoDate_lt_iff`).
-/

namespace Untangle

open Lib

/-! ## Years that begin in March -/

/-- A day is the day `r` of the year `y`, both counted from March: centuries `c`, leap cycles `q` and years `s` of an era
    of four hundred years. -/
structure MarchDay (d y r : ℤ) (e c q s : ℤ) : Prop where
  century : 0 ≤ c ∧ c ≤ 3
  cycle : 0 ≤ q ∧ q ≤ 24
  single : 0 ≤ s ∧ s ≤ 3
  offset : 0 ≤ r
  /-- Only the last year of a cycle ends in a leap day, and the last cycle of a century only in the last century. -/
  last : r ≤ 364 ∨ (r = 365 ∧ s = 3 ∧ (q ≤ 23 ∨ c = 3))
  day : d + 305 = 146097 * e + (36524 * c + 1461 * q + 365 * s + r)
  year : y = 400 * e + (100 * c + 4 * q + s)

/-- The year and the offset that the conversion computes in an era. -/
def yearOfEra (doe : ℤ) : ℤ := (doe - doe / 1460 + doe / 36524 - doe / 146096) / 365

section Era

variable {c q s r : ℤ}

theorem exists_digits {doe : ℤ} (h0 : 0 ≤ doe) (h1 : doe < 146097) :
    ∃ c q s r : ℤ, (0 ≤ c ∧ c ≤ 3) ∧ (0 ≤ q ∧ q ≤ 24) ∧ (0 ≤ s ∧ s ≤ 3) ∧ 0 ≤ r ∧
      (r ≤ 364 ∨ (r = 365 ∧ s = 3 ∧ (q ≤ 23 ∨ c = 3))) ∧ doe = 36524 * c + 1461 * q + 365 * s + r := by
  by_cases hlast : doe = 146096
  · exact ⟨3, 24, 3, 365, by omega⟩
  · have hc : doe / 36524 ≤ 3 := by omega
    have hq : doe % 36524 / 1461 ≤ 24 := by omega
    have hq' : doe % 36524 / 1461 = 24 → doe % 36524 % 1461 ≤ 1459 := by omega
    by_cases hleap : doe % 36524 % 1461 = 1460
    · exact ⟨doe / 36524, doe % 36524 / 1461, 3, 365, by omega⟩
    · exact ⟨doe / 36524, doe % 36524 / 1461, doe % 36524 % 1461 / 365, doe % 36524 % 1461 % 365, by omega⟩

theorem yearOfEra_eq (hc : 0 ≤ c ∧ c ≤ 3) (hq : 0 ≤ q ∧ q ≤ 24) (hs : 0 ≤ s ∧ s ≤ 3) (hr : 0 ≤ r)
    (hlast : r ≤ 364 ∨ (r = 365 ∧ s = 3 ∧ (q ≤ 23 ∨ c = 3))) :
    yearOfEra (36524 * c + 1461 * q + 365 * s + r) = 100 * c + 4 * q + s := by
  unfold yearOfEra
  generalize hdoe : 36524 * c + 1461 * q + 365 * s + r = doe
  have hcentury : doe / 36524 - doe / 146096 = c := by
    by_cases hend : doe = 146096
    · subst hend
      omega
    · have hshort : 1461 * q + 365 * s + r ≤ 36523 := by omega
      have hfirst : doe / 146096 = 0 := by omega
      omega
  -- the leap days before the day, one more near the end of a cycle
  by_cases hearly : 24 * c + q + 365 * s + r < 1460
  · have hfour : doe / 1460 = 25 * c + q := by omega
    have hsum : doe - doe / 1460 + doe / 36524 - doe / 146096 = 365 * (100 * c + 4 * q + s) + r := by omega
    rw [hsum]
    omega
  · have hfour : doe / 1460 = 25 * c + q + 1 := by omega
    have hsum : doe - doe / 1460 + doe / 36524 - doe / 146096 = 365 * (100 * c + 4 * q + s) + (r - 1) := by omega
    rw [hsum]
    omega

theorem offset_eq (hq : 0 ≤ q ∧ q ≤ 24) (hs : 0 ≤ s ∧ s ≤ 3) :
    36524 * c + 1461 * q + 365 * s + r -
      (365 * (100 * c + 4 * q + s) + (100 * c + 4 * q + s) / 4 - (100 * c + 4 * q + s) / 100) = r := by
  omega

end Era

/-- Year, month and day of a year and an offset from March. -/
def civilOf (y r : ℤ) : ℤ × ℤ × ℤ :=
  let mp := (5 * r + 2) / 153
  let month := if mp < 10 then mp + 3 else mp - 9
  (y + (if month ≤ 2 then 1 else 0), month, r - (153 * mp + 2) / 5 + 1)

/-- **The conversion finds the year and the offset.** -/
theorem civilDate_eq (d : ℤ) : ∃ y r e c q s, MarchDay d y r e c q s ∧ civilDate d = civilOf y r := by
  obtain ⟨c, q, s, r, hc, hq, hs, hr, hlast, hdoe⟩ :=
    exists_digits (Int.emod_nonneg (d + 305) (by decide : (146097 : ℤ) ≠ 0)) (Int.emod_lt_of_pos _ (by decide))
  refine ⟨100 * c + 4 * q + s + (d + 305) / 146097 * 400, r, (d + 305) / 146097, c, q, s,
    ⟨hc, hq, hs, hr, hlast, by omega, by omega⟩, ?_⟩
  have hyear := yearOfEra_eq hc hq hs hr hlast
  unfold yearOfEra at hyear
  unfold civilDate civilOf
  dsimp only
  rw [hdoe, hyear, offset_eq hq hs]

/-- **A later day has a later year, or a later offset in the same one.** -/
theorem MarchDay.lt {d d' y y' r r' e e' c c' q q' s s' : ℤ} (h : MarchDay d y r e c q s)
    (h' : MarchDay d' y' r' e' c' q' s') (hlt : d < d') : y < y' ∨ (y = y' ∧ r < r') := by
  obtain ⟨hc, hq, hs, hr, hlast, hd, hy⟩ := h
  obtain ⟨hc', hq', hs', hr', hlast', hd', hy'⟩ := h'
  rcases lt_trichotomy e e' with he | rfl | he
  · left
    omega
  · rcases lt_trichotomy c c' with he | rfl | he
    · left
      omega
    · rcases lt_trichotomy q q' with he | rfl | he
      · left
        omega
      · omega
      · omega
    · omega
  · omega

theorem MarchDay.offset_le {d y r e c q s : ℤ} (h : MarchDay d y r e c q s) : r ≤ 365 := by
  have := h.last
  omega

/-! ## Months and days -/

/-- Numbers and texts of a date: the year, the month and the day, each before the next. -/
def Earlier (p p' : ℤ × ℤ × ℤ) : Prop :=
  p.1 < p'.1 ∨ (p.1 = p'.1 ∧ (p.2.1 < p'.2.1 ∨ (p.2.1 = p'.2.1 ∧ p.2.2 < p'.2.2)))

theorem civilOf_earlier {y y' r r' : ℤ} (hr : 0 ≤ r ∧ r ≤ 365) (hr' : 0 ≤ r' ∧ r' ≤ 365)
    (h : y < y' ∨ (y = y' ∧ r < r')) : Earlier (civilOf y r) (civilOf y' r') := by
  unfold Earlier civilOf
  dsimp only
  have hmp : (5 * r + 2) / 153 ≤ 11 := by omega
  have hmp' : (5 * r' + 2) / 153 ≤ 11 := by omega
  rcases h with h | ⟨rfl, h⟩
  · split_ifs <;> omega
  · have hle : (5 * r + 2) / 153 ≤ (5 * r' + 2) / 153 := by omega
    rcases hle.lt_or_eq with hlt | heq
    · split_ifs <;> omega
    · rw [heq]
      split_ifs <;> omega

/-- A day of the calendar has a year of four digits, a month and a day of two. -/
theorem civilDate_bounds {d : ℤ} (h1 : 1 ≤ d) (h2 : d ≤ lastOrdinal) :
    (1 ≤ (civilDate d).1 ∧ (civilDate d).1 ≤ 9999) ∧ (1 ≤ (civilDate d).2.1 ∧ (civilDate d).2.1 ≤ 12) ∧
      1 ≤ (civilDate d).2.2 ∧ (civilDate d).2.2 ≤ 31 := by
  obtain ⟨y, r, e, c, q, s, hmarch, heq⟩ := civilDate_eq d
  have hr := hmarch.offset_le
  obtain ⟨hc, hq, hs, hr0, hlast, hd, hy⟩ := hmarch
  unfold lastOrdinal at h2
  have he : 0 ≤ e ∧ e ≤ 24 := by omega
  have hyear : (0 ≤ y ∧ y ≤ 9999) ∧ (y = 0 → 306 ≤ r) ∧ (y = 9999 → r ≤ 305) := by omega
  rw [heq]
  unfold civilOf
  dsimp only
  refine ⟨?_, ?_, by omega⟩ <;> split_ifs <;> omega

theorem civilDate_earlier {d d' : ℤ} (h : d < d') : Earlier (civilDate d) (civilDate d') := by
  obtain ⟨y, r, e, c, q, s, hmarch, heq⟩ := civilDate_eq d
  obtain ⟨y', r', e', c', q', s', hmarch', heq'⟩ := civilDate_eq d'
  rw [heq, heq']
  exact civilOf_earlier ⟨hmarch.offset, hmarch.offset_le⟩ ⟨hmarch'.offset, hmarch'.offset_le⟩ (hmarch.lt hmarch' h)

/-! ## Texts -/

theorem isoDate_toList (d : Date) : (isoDate d).toList = (padDigits 4 (civilDate d).1.natAbs).toList ++ '-' ::
    ((padDigits 2 (civilDate d).2.1.natAbs).toList ++ '-' :: (padDigits 2 (civilDate d).2.2.natAbs).toList) := by
  simp [isoDate]

/-- A later day has a later text. -/
theorem isoDate_lt {d d' : Date} (hd : InCalendar d) (hd' : InCalendar d') (h : d < d') : isoDate d < isoDate d' := by
  rw [String.lt_iff_toList_lt, isoDate_toList, isoDate_toList]
  obtain ⟨hy, hm, hday⟩ := civilDate_bounds hd.1 hd.2
  obtain ⟨hy', hm', hday'⟩ := civilDate_bounds hd'.1 hd'.2
  rcases civilDate_earlier h with hyear | ⟨hyear, hmonth | ⟨hmonth, hlast⟩⟩
  · apply append_lt_append_of_lt
    · rw [length_padDigits (by omega) (by decide), length_padDigits (by omega) (by decide)]
    · exact padDigits_lt (by decide) (by omega) (by omega)
  · rw [hyear]
    apply List.append_left_lt
    apply List.cons_lt_cons_self.mpr
    apply append_lt_append_of_lt
    · rw [length_padDigits (by omega) (by decide), length_padDigits (by omega) (by decide)]
    · exact padDigits_lt (by decide) (by omega) (by omega)
  · rw [hyear, hmonth]
    apply List.append_left_lt
    apply List.cons_lt_cons_self.mpr
    apply List.append_left_lt
    apply List.cons_lt_cons_self.mpr
    exact padDigits_lt (by decide) (by omega) (by omega)

/-- **Printed dates sort as dates.** -/
theorem isoDate_lt_iff {d d' : Date} (hd : InCalendar d) (hd' : InCalendar d') : isoDate d < isoDate d' ↔ d < d' := by
  constructor
  · intro h
    rcases lt_trichotomy d d' with hlt | rfl | hgt
    · exact hlt
    · exact absurd h (lt_irrefl _)
    · exact absurd (h.trans (isoDate_lt hd' hd hgt)) (lt_irrefl _)
  · exact isoDate_lt hd hd'

theorem isoDate_le_iff {d d' : Date} (hd : InCalendar d) (hd' : InCalendar d') : isoDate d ≤ isoDate d' ↔ d ≤ d' := by
  rw [← not_lt, ← not_lt, isoDate_lt_iff hd' hd]

end Untangle
