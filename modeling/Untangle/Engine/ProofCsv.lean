import Untangle.Engine.Conversions
import Untangle.Engine.Proof
import Untangle.Lib.Csv

/-!
# `Engine.ProofCsv` — proof packets as CSV

The flat form of proof packets for a finance team (`engine/proof.py`): one line for every packet, with commas between
its fields. A field that a spreadsheet would take for a formula gets an apostrophe before it, and that is so for the
text of a number as well.
-/

namespace Untangle

open Lib

/-- `_CSV_COLUMNS`. -/
def csvColumns : List String :=
  ["line_key", "value_date", "amount_inr", "narration", "bank_ref", "rail", "tier", "confidence", "tie_signals",
    "reconciled", "covered_entity_count", "residual_paise", "balanced", "fee_gst_recoverable_inr"]

/-- The characters a formula starts with. -/
def formulaStart (c : Char) : Bool := c ∈ ['=', '+', '-', '@', '\t', '\r', '\n']

def startsFormula (s : String) : Bool := s.toList.head?.any formulaStart

/-- The formula-injection guard: an apostrophe before what would execute. -/
def neutralized (s : String) : String := if startsFormula s then "'" ++ s else s

/-- `_csv_field`, of the text of a value. -/
def csvField (text : String) : String :=
  let s := neutralized text
  if s.toList.any fun c => c ∈ [',', '"', '\n', '\r'] then
    "\"" ++ String.ofList (Csv.doubleQuotes s.toList) ++ "\""
  else s

/-- `len(v)`. -/
def valueLength : Json → Option Nat
  | .arr items => some items.length
  | .str s => some s.length
  | .obj fields => some fields.length
  | .dict entries => some entries.length
  | _ => none

/-- `t["signal"]`, a text. -/
def tieSignal (tie : Json) : Option String := (tie.get? "signal").bind Json.asStr?

/-- `p.get("settlement") or {}`. -/
def settlementOrEmpty (packet : Json) : Json := ((packet.get? "settlement").filter Json.truth).getD (.obj [])

/-- The values on the line of a packet. -/
def csvRow (packet : Json) : Option (List Json) := do
  let settlement := settlementOrEmpty packet
  let lineKey ← packet.get? "line_key"
  let valueDate ← packet.get? "value_date"
  let amountInr ← packet.get? "amount_inr"
  let narration ← packet.get? "narration"
  let bankRef ← packet.get? "bank_ref"
  let verdict ← packet.get? "verdict"
  let rail ← verdict.get? "rail"
  let tier ← verdict.get? "tier"
  let confidence ← verdict.get? "confidence"
  let proof ← packet.get? "proof"
  let ties ← (proof.get? "ties").bind Json.asArr?
  let signals ← ties.mapM tieSignal
  let reconciled ← packet.get? "reconciled"
  let coveredEntityCount ← valueLength ((settlement.get? "covered_entities").getD (.arr []))
  let feeGst ← packet.get? "fee_gst_recoverable_inr"
  return [lineKey, valueDate, amountInr, narration, bankRef, rail, tier, confidence,
    .str (String.intercalate "; " signals), reconciled, .int coveredEntityCount,
    (settlement.get? "residual_paise").getD (.str ""), (settlement.get? "balanced").getD (.str ""), feeGst]

section Csv

variable (U : Unicode) (floatText : ℚ → String)

/-- The line of a packet, without its line break. -/
def csvLine (packet : Json) : Option String := do
  let row ← csvRow packet
  let texts ← row.mapM (strValue U floatText)
  return String.intercalate "," (texts.map csvField)

/-- `proof_packets_to_csv`, or nothing where a value is missing or has no text. -/
def proofPacketsToCsv (packets : List Json) : Option String := do
  let lines ← packets.mapM (csvLine U floatText)
  return String.intercalate "\n" (String.intercalate "," csvColumns :: lines) ++ "\n"

end Csv

end Untangle
