import Untangle.Lib.Binary64

/-!
# `Lib.Timestamp` — points in time and their text

A timestamp is a date of the Gregorian calendar from year one to year 9999, a time of day in microseconds, and a
distance from UTC unless it is naive. It is written in the extended ISO format; the reader takes the extended and the
basic one, any character between date and time, and a time that ends early, but no week dates. `fromIsoformat_isoformat`
is the round trip.
-/

namespace Lib

/-! ## The calendar -/

def isLeap (year : Nat) : Bool := year % 4 = 0 && (year % 100 ≠ 0 || year % 400 = 0)

def daysInMonth (year month : Nat) : Nat :=
  if month = 2 then (if isLeap year then 29 else 28)
  else if month ∈ [4, 6, 9, 11] then 30
  else 31

/-- The number of a day, the first of January of year one being the first. -/
def dayNumber (year month day : Nat) : Nat :=
  (year - 1) * 365 + (year - 1) / 4 - (year - 1) / 100 + (year - 1) / 400 +
    ((List.range (month - 1)).map fun k => daysInMonth year (k + 1)).sum + day

/-- The microseconds of a day. -/
def dayLength : Nat := 86400000000

structure Timestamp where
  year : Nat
  month : Nat
  day : Nat
  hour : Nat
  minute : Nat
  second : Nat
  microsecond : Nat
  /-- Microseconds ahead of UTC, `none` for a naive timestamp. -/
  offset : Option ℤ
  date : (1 ≤ year ∧ year ≤ 9999) ∧ (1 ≤ month ∧ month ≤ 12) ∧ 1 ≤ day ∧ day ≤ daysInMonth year month
  time : hour < 24 ∧ minute < 60 ∧ second < 60 ∧ microsecond < 1000000
  zone : ∀ o ∈ offset, |o| < dayLength
deriving DecidableEq

namespace Timestamp

/-- The constructor, which refuses fields out of range. -/
def make? (year month day hour minute second microsecond : Nat) (offset : Option ℤ) : Option Timestamp :=
  if h : ((1 ≤ year ∧ year ≤ 9999) ∧ (1 ≤ month ∧ month ≤ 12) ∧ 1 ≤ day ∧ day ≤ daysInMonth year month) ∧
      (hour < 24 ∧ minute < 60 ∧ second < 60 ∧ microsecond < 1000000) ∧ ∀ o ∈ offset, |o| < dayLength then
    some ⟨year, month, day, hour, minute, second, microsecond, offset, h.1, h.2.1, h.2.2⟩
  else none

theorem make?_fields (t : Timestamp) :
    make? t.year t.month t.day t.hour t.minute t.second t.microsecond t.offset = some t := by
  unfold make?
  rw [dif_pos ⟨t.date, t.time, t.zone⟩]

/-- A naive timestamp is taken for UTC. -/
def inUtc (t : Timestamp) : Timestamp :=
  match t.offset with
  | none => { t with offset := some 0, zone := fun o ho => by cases ho; decide }
  | some _ => t

/-- Microseconds since the beginning of the calendar. -/
def instant (t : Timestamp) : ℤ :=
  (dayNumber t.year t.month t.day * dayLength + ((t.hour * 60 + t.minute) * 60 + t.second) * 1000000 +
    t.microsecond : Nat) - t.offset.getD 0

/-! ## The text -/

def dateText (year month day : Nat) : String :=
  padDigits 4 year ++ "-" ++ padDigits 2 month ++ "-" ++ padDigits 2 day

def clockText (hour minute second microsecond : Nat) : String :=
  padDigits 2 hour ++ ":" ++ padDigits 2 minute ++ ":" ++ padDigits 2 second ++
    if microsecond = 0 then "" else "." ++ padDigits 6 microsecond

/-- Hours and minutes, and what is finer if there is any. -/
def offsetText (offset : ℤ) : String :=
  let n := offset.natAbs
  (if offset < 0 then "-" else "+") ++ padDigits 2 (n / 3600000000) ++ ":" ++ padDigits 2 (n / 60000000 % 60) ++
    (if n % 60000000 = 0 then ""
    else ":" ++ padDigits 2 (n / 1000000 % 60) ++
      if n % 1000000 = 0 then "" else "." ++ padDigits 6 (n % 1000000))

/-- `dt.isoformat()`. -/
def isoformat (t : Timestamp) : String :=
  dateText t.year t.month t.day ++ "T" ++ clockText t.hour t.minute t.second t.microsecond ++
    (t.offset.map offsetText).getD ""

/-! ## The reader -/

/-- A number of so many digits. -/
def takeNumber (width : Nat) (cs : List Char) : Option (Nat × List Char) :=
  if (cs.take width).length = width ∧ (cs.take width).all Char.isDigit then
    some (Nat.ofDigitChars 10 (cs.take width) 0, cs.drop width)
  else none

/-- Where the date ends: after eight characters, or after ten with dashes. -/
def dateLength (cs : List Char) : Nat := if cs[4]? = some '-' then 10 else 8

def readDate (cs : List Char) : Option (Nat × Nat × Nat) := do
  let (year, rest) ← takeNumber 4 cs
  let dashed := rest.head? = some '-'
  let (month, rest) ← takeNumber 2 (if dashed then rest.tail else rest)
  if (rest.head? = some '-') ≠ dashed then none
  let (day, _) ← takeNumber 2 (if dashed then rest.tail else rest)
  return (year, month, day)

/-- A decimal mark and digits, the first six of which count. -/
def readMicroseconds : List Char → Option Nat
  | [] => some 0
  | c :: cs =>
    if (c = '.' ∨ c = ',') ∧ cs ≠ [] ∧ cs.all Char.isDigit then
      some (Nat.ofDigitChars 10 (cs.take 6) 0 * 10 ^ (6 - (cs.take 6).length))
    else none

/-- `HH[:?MM[:?SS[.ffffff]]]`. -/
def readClock (cs : List Char) : Option (Nat × Nat × Nat × Nat) := do
  let (hour, rest) ← takeNumber 2 cs
  if rest = [] then return (hour, 0, 0, 0)
  let separated := rest.head? = some ':'
  let (minute, rest) ← takeNumber 2 (if separated then rest.tail else rest)
  if rest = [] then return (hour, minute, 0, 0)
  if separated ∧ rest.head? ≠ some ':' then none
  let (second, rest) ← takeNumber 2 (if separated then rest.tail else rest)
  let microsecond ← readMicroseconds rest
  return (hour, minute, second, microsecond)

/-- The mark that the zone begins with. -/
def zoneMark (cs : List Char) : Char := if '-' ∈ cs then '-' else if '+' ∈ cs then '+' else 'Z'

/-- The distance from UTC that a zone names, of its mark and what follows it. -/
def readZone (mark : Char) (cs : List Char) : Option ℤ := do
  if mark = 'Z' then
    if cs = [] then return 0 else none
  if cs.length ∈ [0, 1, 3] then none
  let (hour, minute, second, microsecond) ← readClock cs
  let n : Nat := ((hour * 60 + minute) * 60 + second) * 1000000 + microsecond
  return if mark = '-' then -n else n

/-- A time with an optional zone. -/
def readTime (cs : List Char) : Option ((Nat × Nat × Nat × Nat) × Option ℤ) := do
  let mark := zoneMark cs
  let clock ← readClock (cs.takeWhile (· ≠ mark))
  if mark ∈ cs then
    let offset ← readZone mark (cs.dropWhile (· ≠ mark)).tail
    return (clock, some offset)
  else return (clock, none)

/-- `datetime.fromisoformat(s)`. -/
def fromIsoformat (cs : List Char) : Option Timestamp := do
  if cs.length < 7 then none
  let (year, month, day) ← readDate (cs.take (dateLength cs))
  let rest := cs.drop (dateLength cs + 1)
  if rest = [] then make? year month day 0 0 0 0 none
  else
    let ((hour, minute, second, microsecond), offset) ← readTime rest
    make? year month day hour minute second microsecond offset

/-! ## The round trip -/

theorem takeNumber_padDigits {width n : Nat} (h : n < 10 ^ width) (hwidth : 0 < width) (cs : List Char) :
    takeNumber width ((padDigits width n).toList ++ cs) = some (n, cs) := by
  have hlen := length_padDigits h hwidth
  have hdigits : (padDigits width n).toList.all Char.isDigit = true :=
    List.all_eq_true.mpr fun c hc => isDigit_padDigits hc
  unfold takeNumber
  rw [List.take_left' hlen, List.drop_left' hlen, if_pos ⟨hlen, hdigits⟩, ofDigitChars_padDigits]

theorem readDate_dateText {year month day : Nat} (hyear : year < 10 ^ 4) (hmonth : month < 10 ^ 2)
    (hday : day < 10 ^ 2) : readDate (dateText year month day).toList = some (year, month, day) := by
  have htext : (dateText year month day).toList =
      (padDigits 4 year).toList ++ '-' :: ((padDigits 2 month).toList ++ '-' :: ((padDigits 2 day).toList ++ [])) := by
    simp [dateText]
  unfold readDate
  rw [htext, takeNumber_padDigits hyear (by decide)]
  simp only [Option.bind_eq_bind, Option.bind_some, List.head?_cons, if_true, List.tail_cons,
    takeNumber_padDigits hmonth (by decide : 0 < 2), takeNumber_padDigits hday (by decide : 0 < 2)]
  simp

theorem readMicroseconds_padDigits {n : Nat} (h : n < 10 ^ 6) :
    readMicroseconds ('.' :: (padDigits 6 n).toList) = some n := by
  have hlen := length_padDigits h (by decide)
  have htake : (padDigits 6 n).toList.take 6 = (padDigits 6 n).toList := List.take_of_length_le hlen.le
  have hdigits : (padDigits 6 n).toList.all Char.isDigit = true :=
    List.all_eq_true.mpr fun c hc => isDigit_padDigits hc
  have hne : (padDigits 6 n).toList ≠ [] := by
    intro hnil
    rw [hnil] at hlen
    cases hlen
  unfold readMicroseconds
  dsimp only
  rw [if_pos ⟨Or.inl rfl, hne, hdigits⟩, htake, ofDigitChars_padDigits, hlen]
  simp

/-- The characters of a clock text. -/
theorem clockText_toList (hour minute second microsecond : Nat) :
    (clockText hour minute second microsecond).toList =
      (padDigits 2 hour).toList ++ ':' :: ((padDigits 2 minute).toList ++ ':' :: ((padDigits 2 second).toList ++
        if microsecond = 0 then [] else '.' :: (padDigits 6 microsecond).toList)) := by
  unfold clockText
  split <;> simp

theorem readClock_clockText {hour minute second microsecond : Nat} (hhour : hour < 10 ^ 2) (hminute : minute < 10 ^ 2)
    (hsecond : second < 10 ^ 2) (hmicrosecond : microsecond < 10 ^ 6) :
    readClock (clockText hour minute second microsecond).toList = some (hour, minute, second, microsecond) := by
  have hrest : readMicroseconds (if microsecond = 0 then [] else '.' :: (padDigits 6 microsecond).toList) =
      some microsecond := by
    split
    · rename_i hzero
      rw [hzero]
      rfl
    · exact readMicroseconds_padDigits hmicrosecond
  unfold readClock
  rw [clockText_toList, takeNumber_padDigits hhour (by decide)]
  simp only [Option.bind_eq_bind, Option.bind_some, List.head?_cons, if_true, List.tail_cons, reduceCtorEq, if_false,
    takeNumber_padDigits hminute (by decide : 0 < 2), takeNumber_padDigits hsecond (by decide : 0 < 2), hrest,
    ne_eq, not_true_eq_false, and_false]
  rfl

/-- A clock text has digits, colons and points. -/
theorem mem_clockText {hour minute second microsecond : Nat} {c : Char}
    (h : c ∈ (clockText hour minute second microsecond).toList) : c.isDigit = true ∨ c = ':' ∨ c = '.' := by
  rw [clockText_toList] at h
  simp only [List.mem_append, List.mem_cons] at h
  obtain h | rfl | h | rfl | h | h := h
  · exact Or.inl (isDigit_padDigits h)
  · exact Or.inr (Or.inl rfl)
  · exact Or.inl (isDigit_padDigits h)
  · exact Or.inr (Or.inl rfl)
  · exact Or.inl (isDigit_padDigits h)
  · split at h
    · cases h
    · obtain rfl | h := List.mem_cons.mp h
      · exact Or.inr (Or.inr rfl)
      · exact Or.inl (isDigit_padDigits h)

theorem readClock_short {hour minute : Nat} (hhour : hour < 10 ^ 2) (hminute : minute < 10 ^ 2) :
    readClock ((padDigits 2 hour).toList ++ ':' :: ((padDigits 2 minute).toList ++ [])) =
      some (hour, minute, 0, 0) := by
  unfold readClock
  rw [takeNumber_padDigits hhour (by decide)]
  simp only [Option.bind_eq_bind, Option.bind_some, List.head?_cons, if_true, List.tail_cons, reduceCtorEq, if_false,
    takeNumber_padDigits hminute (by decide : 0 < 2)]
  rfl

/-- A zone is read as it was written, its mark apart. -/
theorem readZone_offsetText {offset : ℤ} (h : |offset| < dayLength) :
    ∃ cs, (offsetText offset).toList = (if offset < 0 then '-' else '+') :: cs ∧
      readZone (if offset < 0 then '-' else '+') cs = some offset ∧
      ∀ c ∈ cs, c.isDigit = true ∨ c = ':' ∨ c = '.' := by
  have hn : offset.natAbs < 86400000000 := by
    rw [Int.abs_eq_natAbs] at h
    unfold dayLength at h
    omega
  have hhour : offset.natAbs / 3600000000 < 10 ^ 2 := by omega
  have hminute : offset.natAbs / 60000000 % 60 < 10 ^ 2 := by omega
  have hsecond : offset.natAbs / 1000000 % 60 < 10 ^ 2 := by omega
  have hmicrosecond : offset.natAbs % 1000000 < 10 ^ 6 := by omega
  -- what the zone means, of a clock that names its parts
  have hread : ∀ cs second microsecond, 4 < cs.length →
      readClock cs = some (offset.natAbs / 3600000000, offset.natAbs / 60000000 % 60, second, microsecond) →
      ((offset.natAbs / 3600000000 * 60 + offset.natAbs / 60000000 % 60) * 60 + second) * 1000000 + microsecond =
        offset.natAbs → readZone (if offset < 0 then '-' else '+') cs = some offset := by
    intro cs second microsecond hlength hclock htotal
    have hmarks : (if offset < 0 then '-' else '+') ≠ 'Z' := by split <;> decide
    have hlengths : cs.length ∉ [0, 1, 3] := by
      simp only [List.mem_cons, List.not_mem_nil, or_false]
      omega
    unfold readZone
    rw [if_neg hmarks, if_neg hlengths, hclock]
    show some (if (if offset < 0 then '-' else '+') = '-' then _ else _) = _
    rw [htotal]
    by_cases hneg : offset < 0
    · rw [if_pos hneg, if_pos rfl]
      congr 1
      omega
    · rw [if_neg hneg, if_neg (by decide)]
      congr 1
      omega
  have hlen := length_padDigits hhour (by decide)
  have hlen' := length_padDigits hminute (by decide)
  unfold offsetText
  dsimp only
  by_cases hshort : offset.natAbs % 60000000 = 0
  · refine ⟨(padDigits 2 (offset.natAbs / 3600000000)).toList ++
      ':' :: ((padDigits 2 (offset.natAbs / 60000000 % 60)).toList ++ []), ?_, ?_, ?_⟩
    · rw [if_pos hshort]
      split <;> simp
    · apply hread _ 0 0 _ (readClock_short hhour hminute) (by omega)
      simp only [List.length_append, List.length_cons, List.length_nil, hlen, hlen']
      omega
    · intro c hc
      rw [List.append_nil] at hc
      obtain h | h := List.mem_append.mp hc
      · exact Or.inl (isDigit_padDigits h)
      · obtain rfl | h := List.mem_cons.mp h
        · exact Or.inr (Or.inl rfl)
        · exact Or.inl (isDigit_padDigits h)
  · refine ⟨(clockText (offset.natAbs / 3600000000) (offset.natAbs / 60000000 % 60) (offset.natAbs / 1000000 % 60)
      (offset.natAbs % 1000000)).toList, ?_, ?_, ?_⟩
    · rw [if_neg hshort]
      unfold clockText
      split <;> simp
    · apply hread _ _ _ _ (readClock_clockText hhour hminute hsecond hmicrosecond) (by omega)
      rw [clockText_toList]
      simp only [List.length_append, List.length_cons, hlen, hlen']
      omega
    · exact fun c hc => mem_clockText hc

/-- A time is read as it was written. -/
theorem readTime_isoformat {hour minute second microsecond : Nat} {offset : Option ℤ} (hhour : hour < 10 ^ 2)
    (hminute : minute < 10 ^ 2) (hsecond : second < 10 ^ 2) (hmicrosecond : microsecond < 10 ^ 6)
    (hzone : ∀ o ∈ offset, |o| < dayLength) :
    readTime ((clockText hour minute second microsecond).toList ++ ((offset.map offsetText).getD "").toList) =
      some ((hour, minute, second, microsecond), offset) := by
  have hfree : ∀ m : Char, m.isDigit = false → m ≠ ':' → m ≠ '.' →
      ∀ c ∈ (clockText hour minute second microsecond).toList, c ≠ m := by
    rintro m hm hcolon hpoint c hc rfl
    obtain h | h | h := mem_clockText hc
    · rw [hm] at h
      cases h
    · exact hcolon h
    · exact hpoint h
  have hminus := hfree '-' (by decide) (by decide) (by decide)
  have hplus := hfree '+' (by decide) (by decide) (by decide)
  have hclock := readClock_clockText hhour hminute hsecond hmicrosecond
  unfold readTime
  cases offset with
  | none =>
      have hzulu := hfree 'Z' (by decide) (by decide) (by decide)
      have hmark : zoneMark (clockText hour minute second microsecond).toList = 'Z' := by
        unfold zoneMark
        rw [if_neg fun h => hminus _ h rfl, if_neg fun h => hplus _ h rfl]
      have htake : (clockText hour minute second microsecond).toList.takeWhile (· ≠ 'Z') =
          (clockText hour minute second microsecond).toList := by
        rw [← List.append_nil (clockText hour minute second microsecond).toList,
          List.takeWhile_append_of_pos (by simpa using hzulu)]
        rfl
      rw [show ((none.map offsetText).getD "").toList = ([] : List Char) from rfl, List.append_nil, hmark]
      dsimp only
      rw [htake, hclock]
      simp only [Option.bind_eq_bind, Option.bind_some]
      rw [if_neg fun h => hzulu _ h rfl]
      rfl
  | some o =>
      obtain ⟨cs, htext, hread, hfreecs⟩ := readZone_offsetText (hzone o rfl)
      rw [show ((some o).map offsetText).getD "" = offsetText o from rfl, htext]
      generalize hmarkdef : (if o < 0 then '-' else '+') = mark at hread ⊢
      have hmarks : mark = '-' ∨ mark = '+' := by
        rw [← hmarkdef]
        split
        · exact Or.inl rfl
        · exact Or.inr rfl
      have hmark : zoneMark ((clockText hour minute second microsecond).toList ++ mark :: cs) = mark := by
        unfold zoneMark
        obtain rfl | rfl := hmarks
        · rw [if_pos (List.mem_append_right _ List.mem_cons_self)]
        · rw [if_neg, if_pos (List.mem_append_right _ List.mem_cons_self)]
          intro hmem
          obtain h | h := List.mem_append.mp hmem
          · exact hminus _ h rfl
          · obtain h | h := List.mem_cons.mp h
            · exact absurd h (by decide)
            · obtain h | h | h := hfreecs _ h <;> exact absurd h (by decide)
      have hclockfree : ∀ c ∈ (clockText hour minute second microsecond).toList, c ≠ mark := by
        obtain rfl | rfl := hmarks
        · exact hminus
        · exact hplus
      have htake : ((clockText hour minute second microsecond).toList ++ mark :: cs).takeWhile (· ≠ mark) =
          (clockText hour minute second microsecond).toList := by
        rw [List.takeWhile_append_of_pos (by simpa using hclockfree)]
        simp
      have hdrop : ((clockText hour minute second microsecond).toList ++ mark :: cs).dropWhile (· ≠ mark) =
          mark :: cs := by
        rw [List.dropWhile_append_of_pos (by simpa using hclockfree)]
        simp
      rw [hmark]
      dsimp only
      rw [htake, hdrop, hclock]
      simp only [Option.bind_eq_bind, Option.bind_some, List.mem_append, List.mem_cons, true_or, or_true, if_true,
        List.tail_cons, hread]
      rfl

theorem length_dateText {year month day : Nat} (hyear : year < 10 ^ 4) (hmonth : month < 10 ^ 2)
    (hday : day < 10 ^ 2) : (dateText year month day).toList.length = 10 := by
  have hy := length_padDigits hyear (by decide)
  have hm := length_padDigits hmonth (by decide)
  have hd := length_padDigits hday (by decide)
  unfold dateText
  rw [String.toList_append, String.toList_append, String.toList_append, String.toList_append, List.length_append,
    List.length_append, List.length_append, List.length_append, hy, hm, hd]
  rfl

theorem dateLength_dateText {year : Nat} (hyear : year < 10 ^ 4) (month day : Nat) (cs : List Char) :
    dateLength ((dateText year month day).toList ++ cs) = 10 := by
  have hy := length_padDigits hyear (by decide)
  unfold dateLength
  rw [if_pos]
  have htext : (dateText year month day).toList ++ cs =
      (padDigits 4 year).toList ++ '-' :: ((padDigits 2 month).toList ++ '-' :: ((padDigits 2 day).toList ++ cs)) := by
    simp [dateText]
  rw [htext, List.getElem?_append_right hy.le, hy]
  rfl

/-- **A timestamp is read as it was written.** -/
theorem fromIsoformat_isoformat (t : Timestamp) : fromIsoformat t.isoformat.toList = some t := by
  obtain ⟨⟨hyear, hyear'⟩, ⟨hmonth, hmonth'⟩, hday, hday'⟩ := t.date
  obtain ⟨hhour, hminute, hsecond, hmicrosecond⟩ := t.time
  have hdays : daysInMonth t.year t.month ≤ 31 := by
    unfold daysInMonth
    split
    · split <;> decide
    · split <;> decide
  have htext : t.isoformat.toList = (dateText t.year t.month t.day).toList ++ 'T' ::
      ((clockText t.hour t.minute t.second t.microsecond).toList ++ ((t.offset.map offsetText).getD "").toList) := by
    unfold isoformat
    simp
  have hlength : (dateText t.year t.month t.day).toList.length = 10 := by
    apply length_dateText
    · omega
    · omega
    · omega
  have hdrop : ∀ cs, ((dateText t.year t.month t.day).toList ++ 'T' :: cs).drop (10 + 1) = cs := by
    intro cs
    rw [← List.drop_drop, List.drop_left' hlength]
    rfl
  have hlong : ∀ cs, ¬ ((dateText t.year t.month t.day).toList ++ 'T' :: cs).length < 7 := by
    intro cs
    rw [List.length_append, hlength]
    omega
  have hsome : (clockText t.hour t.minute t.second t.microsecond).toList ++
      ((t.offset.map offsetText).getD "").toList ≠ [] := by
    rw [clockText_toList]
    simp
  unfold fromIsoformat
  rw [htext, if_neg (hlong _), dateLength_dateText (by omega), List.take_left' hlength,
    readDate_dateText (by omega) (by omega) (by omega)]
  simp only [Option.bind_eq_bind, Option.bind_some]
  rw [hdrop, if_neg hsome, readTime_isoformat (by omega) (by omega) (by omega) (by omega) t.zone]
  exact make?_fields t

/-- The text of a timestamp has digits and a few marks. -/
theorem mem_isoformat {t : Timestamp} {c : Char} (h : c ∈ t.isoformat.toList) :
    c.isDigit = true ∨ c ∈ ['-', 'T', ':', '.', '+'] := by
  have hnumber : ∀ {width n : Nat}, c ∈ (padDigits width n).toList → c.isDigit = true ∨ c ∈ ['-', 'T', ':', '.', '+'] :=
    fun h => Or.inl (isDigit_padDigits h)
  unfold isoformat dateText at h
  simp only [String.toList_append, List.mem_append, or_assoc] at h
  obtain h | h | h | h | h | h | h | h := h
  · exact hnumber h
  · exact Or.inr (by simp_all)
  · exact hnumber h
  · exact Or.inr (by simp_all)
  · exact hnumber h
  · exact Or.inr (by simp_all)
  · obtain h | rfl | rfl := mem_clockText h
    · exact Or.inl h
    · exact Or.inr (by decide)
    · exact Or.inr (by decide)
  · cases hoffset : t.offset with
    | none =>
        rw [hoffset] at h
        cases h
    | some o =>
        rw [hoffset, Option.map_some, Option.getD_some] at h
        obtain ⟨cs, htext, _, hcs⟩ := readZone_offsetText (t.zone o hoffset)
        rw [htext] at h
        obtain rfl | h := List.mem_cons.mp h
        · right
          split <;> decide
        · obtain h | rfl | rfl := hcs c h
          · exact Or.inl h
          · exact Or.inr (by decide)
          · exact Or.inr (by decide)

end Timestamp

end Lib
