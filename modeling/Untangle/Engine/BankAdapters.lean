import Mathlib.Data.List.Sort
import Untangle.Engine.Format
import Untangle.Engine.Provenance
import Untangle.Lib.DecimalContext
import Untangle.Lib.DecimalDigits
import Untangle.Lib.Timestamp

/-!
# `Engine.BankAdapters` — bank statement rows

Model of `engine/bank_adapters.py`: the amount cells, the dates and the rows of a generic bank export. A malformed
cell is an `InputError`. What the decimal arithmetic signals besides invalid operations is an overflow, and nothing
here catches it. The reader of the statement is the list of its rows, each with the line it ends on.
-/

namespace Untangle

open Lib

/-- What stops the parsing: an `InputError`, or `decimal.Overflow`. -/
inductive BankError
  | input (message : String)
  | overflow
deriving DecidableEq, Repr

/-! ## Decimal numbers -/

/-- The default context: 28 digits. -/
def defaultContext : Context where
  prec := 28
  emin := -999999
  emax := 999999
  prec_pos := by decide
  emin_neg := by decide
  prec_le := by decide

/-- `MAX_EMAX` and `MIN_ETINY`: the exponents that a number can be written with at all. -/
def maxEmax : ℤ := 999999999999999999
def minEtiny : ℤ := -1999999999999999997

/-- A number has an exponent in range, and so has its first digit. -/
def writable (x : Numeral) : Bool :=
  minEtiny ≤ x.exp ∧ if x.coeff = 0 then x.exp ≤ maxEmax else x.exp + numDigits x.coeff - 1 ≤ maxEmax

/-- `s.lstrip()` and `s.rstrip()`, of characters. -/
def lstripChars (cs : List Char) : List Char := cs.dropWhile isSpace
def rstripChars (cs : List Char) : List Char := (cs.reverse.dropWhile isSpace).reverse

/-- `s.replace(",", "")`. -/
def dropCommas (s : String) : String := String.ofList (s.toList.filter (· ≠ ','))

section Digits

variable (D : DecimalDigits)

/-- A run of digits, at least one. -/
def readRun (cs : List Char) : Option Nat := if cs ≠ [] ∧ cs.all D.isDecimal then some (D.number cs) else none

/-- The digits after a point, and what follows them. -/
def afterPoint : List Char → List Char × List Char
  | '.' :: cs => cs.span D.isDecimal
  | cs => ([], cs)

/-- An exponent with its indicator, or nothing. -/
def exponentPart : List Char → Option ℤ
  | [] => some 0
  | c :: cs =>
    let (negative, digits) := readSign cs
    if c = 'e' ∨ c = 'E' then (readRun D digits).map fun n => if negative then -(n : ℤ) else n else none

/-- Digits with an optional point and an optional exponent. -/
def readNumeral (negative : Bool) (cs : List Char) : Option Numeral :=
  let (whole, rest) := cs.span D.isDecimal
  let (fraction, rest) := afterPoint D rest
  if whole ++ fraction = [] then none
  else (exponentPart D rest).map fun e => ⟨negative, D.number (whole ++ fraction), e - fraction.length⟩

/-- `Infinity`, `NaN` and `sNaN`, the latter two with optional digits. -/
def isSpecial (cs : List Char) : Bool :=
  let lower := cs.map Char.toLower
  lower = "inf".toList ∨ lower = "infinity".toList ∨
    ("nan".toList.isPrefixOf lower ∧ (cs.drop 3).all D.isDecimal) ∨
    ("snan".toList.isPrefixOf lower ∧ (cs.drop 4).all D.isDecimal)

inductive DecimalValue
  | finite (x : Numeral)
  | special
deriving DecidableEq, Repr

/-- `Decimal(text)`, exactly: white space around it and all underscores are removed first. -/
def decimalOfText (text : String) : Option DecimalValue :=
  let (negative, body) := readSign ((strip text).toList.filter (· ≠ '_'))
  match readNumeral D negative body with
  | some x => if writable x then some (.finite x) else none
  | none => if isSpecial D body then some .special else none

end Digits

/-! ## Amounts -/

/-- The columns an amount can stand in. -/
inductive Column
  | credit
  | debit
deriving DecidableEq, Repr

def Column.name : Column → String
  | .credit => "credit"
  | .debit => "debit"

/-- The accounting markers. -/
inductive Marker
  | cr
  | dr
deriving DecidableEq, Repr

def Marker.text : Marker → String
  | .cr => "CR"
  | .dr => "DR"

/-- `_MARKER_COLUMN`. -/
def markerColumn : Marker → Column
  | .cr => .credit
  | .dr => .debit

/-- `text.upper().endswith(" " + marker)`: only ASCII letters have these capitals. -/
def endsWithMarker (text : String) (marker : Marker) : Bool :=
  (" " ++ marker.text).toList.isSuffixOf (text.toList.map Char.toUpper)

/-- `text[: len(text) - len(marker) - 1].rstrip()`. -/
def dropMarker (text : String) (marker : Marker) : String :=
  String.ofList (rstripChars (text.toList.take (text.length - marker.text.length - 1)))

/-- The first marker that the text ends with. -/
def markerOf (text : String) : Option Marker := [Marker.cr, Marker.dr].find? (endsWithMarker text)

/-- The text is signed, after comma normalization. -/
def signed (text : String) : Bool := (lstripChars (dropCommas text).toList).head? = some '-'

/-- What a decimal operation signals. -/
inductive Signal
  | invalidOperation
  | overflow
deriving DecidableEq, Repr

/-- `int((x * 100).quantize(Decimal("1"), rounding=ROUND_HALF_UP))`. -/
def paiseOf (x : Numeral) : Except Signal ℤ :=
  match defaultContext.mul x ⟨false, 100, 0⟩ with
  | none => .error .overflow
  | some y =>
    match defaultContext.quantizeUnit y with
    | none => .error .invalidOperation
    | some paise => .ok paise

section Amounts

variable (D : DecimalDigits) (U : Unicode)

/-- A text that is no amount is rejected. -/
def amountError (text ctx : String) : BankError :=
  .input ("Bank statement: could not parse amount " ++ U.repr text ++ " in " ++ ctx ++ ". " ++
    "Expected a rupee value like 12345.67.")

/-- What is signalled by the arithmetic: an invalid operation is caught, an overflow is not. -/
def caught (text ctx : String) : Signal → BankError
  | .invalidOperation => amountError U text ctx
  | .overflow => .overflow

/-- A rupee text to integer paise, rounded half up. -/
def rupeesToPaise (raw ctx : String) : Except BankError ℤ :=
  let text := dropCommas (strip raw)
  if text = "" then .ok 0
  else
    match decimalOfText D text with
    | none => .error (amountError U text ctx)
    -- infinity and a signalling NaN are invalid operations, a quiet NaN is no integer
    | some .special => .error (amountError U text ctx)
    | some (.finite x) => (paiseOf x).mapError (caught U text ctx)

/-- A signed amount is rejected. -/
def signedError (raw ctx : String) : BankError :=
  .input ("Bank statement " ++ ctx ++ ": credit/debit amounts must be non-negative (" ++ U.repr raw ++ "); " ++
    "use the appropriate column to indicate direction.")

/-- A marker must agree with the column. -/
def markerError (marker : Marker) (column : Column) (ctx : String) : BankError :=
  .input ("Bank statement " ++ ctx ++ ": a " ++ marker.text ++ " marker in the " ++ column.name ++
    " column contradicts its direction; put the amount in the column that matches the marker.")

/-- The amount without its marker. -/
def unsignedAmount (raw text ctx : String) : Except BankError ℤ :=
  if signed text then .error (signedError U raw ctx) else rupeesToPaise D U text ctx

/-- A credit or debit cell to non-negative paise: direction is decided by the column. -/
def parseDirectionAmount (raw : String) (column : Column) (ctx : String) : Except BankError ℤ :=
  match markerOf (strip raw) with
  | none => unsignedAmount D U raw (strip raw) ctx
  | some marker =>
    if markerColumn marker ≠ column then .error (markerError marker column ctx)
    else unsignedAmount D U raw (dropMarker (strip raw) marker) ctx

end Amounts

/-! ## Dates -/

/-- `date(year, month, day)`. -/
def civilDay (year month day : Nat) : Option Date :=
  if (1 ≤ year ∧ year ≤ 9999) ∧ (1 ≤ month ∧ month ≤ 12) ∧ 1 ≤ day ∧ day ≤ daysInMonth year month then
    some (dayNumber year month day)
  else none

section Dates

variable (D : DecimalDigits)

/-- `%d`: `3[0-1]|[1-2]\d|0[1-9]|[1-9]| [1-9]`. -/
def dayField : List Char → Option Nat
  | [c] => if c.isDigit ∧ c ≠ '0' then some (D.number [c]) else none
  | [c, d] =>
    if (c = '3' ∧ (d = '0' ∨ d = '1')) ∨ ((c = '1' ∨ c = '2') ∧ D.isDecimal d) ∨
        ((c = '0' ∨ c = ' ') ∧ d.isDigit ∧ d ≠ '0') then
      some (D.number [c, d])
    else none
  | _ => none

/-- `%m`: `1[0-2]|0[1-9]|[1-9]`. -/
def monthField : List Char → Option Nat
  | [c] => if c.isDigit ∧ c ≠ '0' then some (D.number [c]) else none
  | [c, d] =>
    if (c = '1' ∧ (d = '0' ∨ d = '1' ∨ d = '2')) ∨ (c = '0' ∧ d.isDigit ∧ d ≠ '0') then some (D.number [c, d]) else none
  | _ => none

/-- `%Y`, or `%y` where years up to 68 are of this century. -/
def yearField (full : Bool) (cs : List Char) : Option Nat :=
  if cs.length = (if full then 4 else 2) ∧ cs.all D.isDecimal then
    let n := D.number cs
    some (if full then n else if n ≤ 68 then 2000 + n else 1900 + n)
  else none

/-- `datetime.strptime(raw, fmt).date()` for day, month and year with a separator. -/
def strptime (sep : Char) (full : Bool) (cs : List Char) : Option Date :=
  match cs.splitOn sep with
  | [day, month, year] => do
    let day ← dayField D day
    let month ← monthField D month
    let year ← yearField D full year
    civilDay year month day
  | _ => none

end Dates

/-- The Monday of the first ISO week of a year. -/
def isoWeekOne (year : Nat) : ℤ :=
  let first : ℤ := dayNumber year 1 1
  let weekday := (first + 6) % 7
  first - weekday + if 3 < weekday then 7 else 0

/-- The weeks of an ISO year: 53 if it starts on a Thursday, or on a Wednesday and is a leap year. -/
def isoWeeks (year : Nat) : Nat :=
  let weekday := dayNumber year 1 1 % 7
  if weekday = 4 ∨ (weekday = 3 ∧ isLeap year) then 53 else 52

/-- A week date. -/
def weekDay (year week day : Nat) : Option Date :=
  let d := isoWeekOne year + ((week : ℤ) - 1) * 7 + (day - 1)
  if (1 ≤ year ∧ year ≤ 9999) ∧ (1 ≤ week ∧ week ≤ isoWeeks year) ∧ (1 ≤ day ∧ day ≤ 7) ∧ InCalendar d then some d
  else none

/-- `W` and a week, with an optional day. -/
def readWeek (dashed : Bool) (year : Nat) (cs : List Char) : Option Date := do
  let (week, rest) ← Timestamp.takeNumber 2 cs
  if rest = [] then weekDay year week 1
  else
    if (rest.head? = some '-') ≠ dashed then none
    let (day, rest) ← Timestamp.takeNumber 1 (if dashed then rest.tail else rest)
    if rest = [] then weekDay year week day else none

/-- `date.fromisoformat`: calendar dates and week dates, extended or basic. -/
def dateFromIsoformat (cs : List Char) : Option Date := do
  let (year, rest) ← Timestamp.takeNumber 4 cs
  let dashed := rest.head? = some '-'
  let rest := if dashed then rest.tail else rest
  if rest.head? = some 'W' then readWeek dashed year rest.tail
  else
    let (month, rest) ← Timestamp.takeNumber 2 rest
    if (rest.head? = some '-') ≠ dashed then none
    let (day, rest) ← Timestamp.takeNumber 2 (if dashed then rest.tail else rest)
    if rest = [] then civilDay year month day else none

/-- The formats of `_parse_date`, in order: separator, and whether the year has four digits. -/
def dateFormats : List (Char × Bool) := [('/', true), ('-', true), ('/', false), ('-', false), ('.', true)]

/-- `_parse_date`. -/
def parseDate (D : DecimalDigits) (U : Unicode) (raw ctx : String) : Except BankError Date :=
  let text := strip raw
  match (dateFormats.findSome? fun fmt => strptime D fmt.1 fmt.2 text.toList).or (dateFromIsoformat text.toList) with
  | some d => .ok d
  | none => .error (.input (ctx ++ ": could not parse date " ++ U.repr text ++ ". Supported formats: YYYY-MM-DD, " ++
      "DD/MM/YYYY, DD-MM-YYYY, DD/MM/YY, DD-MM-YY, DD.MM.YYYY."))

/-! ## Rows -/

/-- Provenance metadata: which adapter parsed the statement. -/
structure BankInputProvenance where
  adapterId : String
  adapterVersion : String
  sourceLabel : String
  warnings : List String := []
deriving DecidableEq, Repr

structure BankLoadResult where
  lines : List BankCreditLine
  provenance : BankInputProvenance
deriving DecidableEq, Repr

/-- `_BANK_REQUIRED`, sorted. -/
def bankRequired : List String := ["credit", "debit", "narration", "value_date"]

/-- `_BANK_ALIASES`. -/
def bankAliases : List (String × String) :=
  [("value date", "value_date"), ("value dt", "value_date"), ("date", "value_date"), ("narration", "narration"),
    ("description", "narration"), ("particulars", "narration"), ("chq./ref.no.", "ref_no"), ("chq/ref no", "ref_no"),
    ("ref no", "ref_no"), ("reference", "ref_no"), ("deposit amt.", "credit"), ("deposit amount", "credit"),
    ("credit", "credit"), ("withdrawal amt.", "debit"), ("withdrawal amount", "debit"), ("debit", "debit")]

section Rows

variable (H : Hashing) (D : DecimalDigits) (U : Unicode)

/-- A normalized header token: without a byte order mark and white space, in lower case. -/
def cleanHeaderToken (h : String) : String :=
  U.lower (strip (String.ofList (h.toList.dropWhile fun c => c.toNat = 0xFEFF)))

/-- The canonical name of a column. -/
def columnName (h : String) : String := (bankAliases.lookup (cleanHeaderToken U h)).getD (cleanHeaderToken U h)

/-- A list of names, as it is printed. -/
def namesRepr (names : List String) : String := "[" ++ String.intercalate ", " (names.map U.repr) ++ "]"

/-- The names of a set, sorted. -/
def sortedNames (names : List String) : List String := names.dedup.insertionSort (· ≤ ·)

/-- The deterministic content hash of a line. -/
def lineKeyOf (valueDate : String) (amountPaise : ℤ) (narration : String) (bankRef : Option String) : String :=
  "k_" ++ String.ofList ((H.sha256 (valueDate ++ "|" ++ toString amountPaise ++ "|" ++ strip narration ++ "|" ++
    strip (bankRef.getD ""))).toList.take 16)

/-- `(row_dict.get(name) or "").strip()`. -/
def cellOf (mapped row : List String) (name : String) : String := strip (((mapped.zip row).lookup name).getD "")

/-- One row with content. -/
def parseRow (mapped : List String) (refCol : Option String) (startLine : Nat) (row : List String) :
    Except BankError BankCreditLine := do
  let here := "row " ++ toString startLine
  if row.length ≠ mapped.length then
    throw (.input ("Bank statement " ++ here ++ ": expected " ++ toString mapped.length ++ " columns, found " ++
      toString row.length ++ "."))
  let narration := cellOf mapped row "narration"
  let creditRaw := cellOf mapped row "credit"
  let debitRaw := cellOf mapped row "debit"
  if (creditRaw ≠ "") = (debitRaw ≠ "") then
    throw (.input ("Bank statement " ++ here ++ ": exactly one of credit or debit must be populated."))
  let isCredit : Bool := creditRaw ≠ ""
  let amount ←
    if isCredit then parseDirectionAmount D U creditRaw .credit here
    else (parseDirectionAmount D U debitRaw .debit here).map fun paise => -paise
  let bankRef := refCol.map (cellOf mapped row)
  let parsedDate ← parseDate D U (cellOf mapped row "value_date") ("Bank statement " ++ here)
  return { key := lineKeyOf H (isoDate parsedDate) amount narration bankRef, valueDate := parsedDate,
           amountPaise := amount, narration, bankRef := truthy bankRef, isCredit }

/-- The loop over the rows: a row starts after the line that the one before it ends on. -/
def parseBody (mapped : List String) (refCol : Option String) : Nat → List (List String × Nat) →
    Except BankError (List BankCreditLine)
  | _, [] => .ok []
  | endLine, (row, lineNum) :: rows => do
    if row.all fun x => strip x = "" then
      parseBody mapped refCol lineNum rows
    else
      let line ← parseRow H D U mapped refCol (endLine + 1) row
      let lines ← parseBody mapped refCol lineNum rows
      return line :: lines

/-- Number the lines of a key that there are several of. -/
def disambiguate (seen : String → Nat) : Dict String Nat → List BankCreditLine → List BankCreditLine
  | _, [] => []
  | counters, ln :: lines =>
    if 1 < seen ln.key then
      let n := (counters.get? ln.key).getD 0 + 1
      { ln with key := ln.key ++ "#" ++ toString n } :: disambiguate seen (counters.insert ln.key n) lines
    else ln :: disambiguate seen counters lines

/-- Parse the data rows of a statement with this header. -/
def parseRows (header : List String) (rows : List (List String × Nat)) (source : String) (headerEndLine : Nat) :
    Except BankError BankLoadResult := do
  let mapped := header.map (columnName U)
  if "value_date" ∉ mapped ∨ "narration" ∉ mapped then
    throw (.input "Bank statement: header must contain date and narration columns.")
  if ¬ mapped.Nodup then
    throw (.input ("Bank statement: duplicate columns after normalization: " ++
      namesRepr U (sortedNames (mapped.filter fun name => 1 < mapped.count name)) ++ "."))
  let missing := bankRequired.filter (· ∉ mapped)
  if missing ≠ [] then
    throw (.input ("Bank statement " ++ source ++ ": missing required column(s) " ++ namesRepr U missing ++ ". " ++
      "Found columns: " ++ namesRepr U (sortedNames mapped) ++ "."))
  let refCol := if "ref_no" ∈ mapped then some "ref_no" else if "bank_ref" ∈ mapped then some "bank_ref" else none
  let lines ← parseBody H D U mapped refCol headerEndLine rows
  if lines = [] then
    throw (.input ("Bank statement " ++ source ++ " contained no data rows."))
  return { lines := disambiguate (fun key => lines.countP fun ln => ln.key = key) Dict.empty lines
           provenance := { adapterId := "generic_csv", adapterVersion := "1.0.0", sourceLabel := source } }

end Rows

end Untangle
