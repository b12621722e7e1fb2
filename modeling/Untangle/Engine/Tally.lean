import Untangle.Engine.Certificate
import Untangle.Engine.RunReport
import Untangle.Lib.DecimalDigits

/-!
# `Engine.Tally` — the voucher-import file

Model of the export half of `engine/journal.py`: vouchers as Tally XML, directly or from the journal of a report. A
debit is a negative amount and a credit a positive one; a voucher without a date is passed over. `repr` is the
interpreter's text of a value, and the digits of an amount are those of any script.
-/

namespace Untangle

open Lib

/-! ## Escaping -/

/-- The code points that `_XML_ILLEGAL_RE` leaves: those permitted in XML 1.0 text. -/
def xmlLegal (c : Char) : Bool :=
  let n := c.toNat
  n == 0x9 || n == 0xA || n == 0xD || (0x20 ≤ n && n ≤ 0xD7FF) || (0xE000 ≤ n && n ≤ 0xFFFD) ||
    (0x10000 ≤ n && n ≤ 0x10FFFF)

/-- `_XML_ILLEGAL_RE.sub("", s)`. -/
def dropIllegal (s : String) : String := String.ofList (s.toList.filter xmlLegal)

/-- `s.replace(c, text)`. -/
def replaceChar (c : Char) (text s : String) : String :=
  String.ofList (s.toList.flatMap fun x => if x = c then text.toList else [x])

/-- Escape the five metacharacters, the ampersand first, of a text without its forbidden code points. -/
def xmlEscape (s : String) : String :=
  replaceChar '\'' "&apos;" (replaceChar '"' "&quot;" (replaceChar '>' "&gt;" (replaceChar '<' "&lt;"
    (replaceChar '&' "&amp;" (dropIllegal s)))))

/-! ## Vouchers -/

namespace JournalEntry

/-- `tdate`: YYYYMMDD, or nothing. -/
def tallyDate (e : JournalEntry) : String := String.ofList (e.date.toList.filter (· ≠ '-'))

/-- The deterministic settlement key. -/
def tallyGuid (e : JournalEntry) : String := "UNTANGLE-RZP-" ++ xmlEscape e.ref

end JournalEntry

namespace JournalLine

/-- Whether a posting is one to the debit, and its amount: a debit is negative. -/
def signed (ln : JournalLine) : ℤ × String :=
  if ln.debitPaise ≠ 0 then (-ln.debitPaise, "Yes") else (ln.creditPaise, "No")

/-- `f"{amt:.2f}"`. -/
def tallyAmount (ln : JournalLine) : String := inr ln.signed.1

def tallyLines (ln : JournalLine) : List String :=
  ["<ALLLEDGERENTRIES.LIST>",
    "<LEDGERNAME>" ++ xmlEscape ln.ledger ++ "</LEDGERNAME>",
    "<ISDEEMEDPOSITIVE>" ++ ln.signed.2 ++ "</ISDEEMEDPOSITIVE><AMOUNT>" ++ ln.tallyAmount ++ "</AMOUNT>",
    "</ALLLEDGERENTRIES.LIST>"]

end JournalLine

/-- The lines of one voucher. -/
def tallyVoucher (e : JournalEntry) : List String :=
  ["<TALLYMESSAGE xmlns:UDF=\"TallyUDF\">",
    "<VOUCHER VCHTYPE=\"Journal\" ACTION=\"Create\" OBJVIEW=\"Accounting Voucher View\">",
    "<GUID>" ++ e.tallyGuid ++ "</GUID><REMOTEID>" ++ e.tallyGuid ++ "</REMOTEID>",
    "<VOUCHERTYPENAME>Journal</VOUCHERTYPENAME><DATE>" ++ e.tallyDate ++ "</DATE><EFFECTIVEDATE>" ++ e.tallyDate ++
      "</EFFECTIVEDATE>",
    "<VOUCHERNUMBER>" ++ e.tallyGuid ++ "</VOUCHERNUMBER><REFERENCE>" ++ xmlEscape e.utr ++ "</REFERENCE>",
    "<NARRATION>" ++ xmlEscape e.narration ++ "</NARRATION>"] ++
    e.lines.flatMap JournalLine.tallyLines ++
    ["</VOUCHER></TALLYMESSAGE>"]

/-- The entries that a voucher is emitted for: a voucher must carry a date. -/
def tallyEntries (entries : List JournalEntry) : List JournalEntry := entries.filter fun e => e.tallyDate ≠ ""

def defaultCompany : String := "Your Company Name"

/-- A Tally Prime voucher-import file. -/
def toTallyXml (entries : List JournalEntry) (company : String) : String :=
  String.intercalate "\n"
    (["<ENVELOPE>",
        "<HEADER><TALLYREQUEST>Import Data</TALLYREQUEST></HEADER>",
        "<BODY><IMPORTDATA>",
        "<REQUESTDESC><REPORTNAME>Vouchers</REPORTNAME>",
        "<STATICVARIABLES><SVCURRENTCOMPANY>" ++ xmlEscape company ++ "</SVCURRENTCOMPANY></STATICVARIABLES>",
        "</REQUESTDESC><REQUESTDATA>"] ++
      (tallyEntries entries).flatMap tallyVoucher ++
      ["</REQUESTDATA></IMPORTDATA></BODY></ENVELOPE>"])

/-! ## The journal of a report -/

def toJournalJson (entries : List JournalEntry) : List Json := entries.map JournalEntry.toDict

/-- What stops the reading of a journal. -/
inductive JournalJsonError
  | raised (e : PyError)
  /-- `KeyError`. -/
  | missing (key : String)
deriving DecidableEq, Repr

/-- `v[key]`. -/
def subscript (v : Json) (key : String) : Except JournalJsonError Json :=
  match v with
  | .obj _ | .dict _ =>
    match v.get? key with
    | some w => .ok w
    | none => .error (.missing key)
  | .str _ => .error (.raised (.type "string indices must be integers, not 'str'"))
  | .arr _ => .error (.raised (.type "list indices must be integers or slices, not str"))
  | _ => .error (.raised (.type ("'" ++ v.typeName ++ "' object is not subscriptable")))

section Journal

variable (D : DecimalDigits) (repr : Json → String)

/-- The digits after the point: none, or one or two. -/
def readPaisePart : List Char → Option (List Char)
  | [] => some []
  | '.' :: ds => if ds.all D.isDecimal ∧ 1 ≤ ds.length ∧ ds.length ≤ 2 then some ds else none
  | _ => none

/-- `-?\d+(?:\.\d{1,2})?`, matched in full: whether there is a minus, the whole part and the fraction. -/
def matchInr (cs : List Char) : Option (Bool × List Char × List Char) :=
  let negative := cs.head? = some '-'
  let parts := (if negative then cs.tail else cs).span D.isDecimal
  if parts.1 = [] then none else (readPaisePart D parts.2).map fun ds => (negative, parts.1, ds)

/-- `paise`: sign, whole part and fraction of a rupee text. -/
def readPaise (value : Json) : Except PyError ℤ :=
  let text := strip (if value.truth then pyStr repr value else "0")
  match matchInr D text.toList with
  | none => .error (.value ("invalid INR amount: " ++ repr value))
  | some (negative, whole, frac) =>
    if maxStrDigits < whole.length then
      .error (.value ("Exceeds the limit (4300 digits) for integer string conversion: value has " ++
        toString whole.length ++ " digits; use sys.set_int_max_str_digits() to increase the limit"))
    else
      .ok ((if negative then -1 else 1) * (D.number whole * 100 + D.number ((frac ++ ['0', '0']).take 2) : ℤ))

/-- One posting. A ledger that is no text is only printed, so its text is as good. -/
def readJournalLine (ln : Json) : Except JournalJsonError JournalLine := do
  let ledger ← subscript ln "ledger"
  let debit ← (getAttr ln "debit_inr" (.str "0")).mapError .raised
  let debitPaise ← (readPaise D repr debit).mapError .raised
  let credit ← (getAttr ln "credit_inr" (.str "0")).mapError .raised
  let creditPaise ← (readPaise D repr credit).mapError .raised
  return { ledger := pyStr repr ledger, debitPaise, creditPaise }

def readJournalEntry (e : Json) : Except JournalJsonError JournalEntry := do
  let ref ← (getAttr e "ref" (.str "")).mapError .raised
  let date ← (getAttr e "date" (.str "")).mapError .raised
  let utr ← (getAttr e "utr" (.str "")).mapError .raised
  let narration ← (getAttr e "narration" (.str "")).mapError .raised
  let lines ← (getAttr e "lines" (.arr [])).mapError .raised
  let items ← (iterate lines).mapError .raised
  let lines ← items.mapM (readJournalLine D repr)
  return { ref := pyStr repr ref, date := pyStr repr date, utr := pyStr repr utr, narration := pyStr repr narration,
           lines }

/-- The journal of a report as Tally XML. -/
def journalJsonToTallyXml (journal : List Json) (company : String) : Except JournalJsonError String := do
  let entries ← journal.mapM (readJournalEntry D repr)
  return toTallyXml entries company

end Journal

end Untangle
