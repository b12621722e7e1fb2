import Untangle.Engine.Conversions
import Untangle.Engine.Format

/-!
# `Engine.Ingest` — the settlement report

Model of the reader of settlement reports in `engine/ingest.py`, from the decoded JSON value on. Besides an
`InputError` it can raise what the interpreter's conversions raise and nothing here catches: a `ValueError` where an
integer of more than 4300 digits is to be shown, and an `OverflowError` where a time stamp is infinite or beyond 64
bits. The interpreter's tables and the text of a float are parameters; its recursion limit is left out.
-/

namespace Untangle

open Lib

/-- What stops the loading. -/
inductive LoadError
  | input (message : String)
  | valueError
  | overflowError
deriving DecidableEq, Repr

section Loading

variable (D : DecimalDigits) (U : Unicode) (floatText : ℚ → String)

/-! ## Amounts -/

/-- A text in an error, or the error of making it. -/
def inputError (text : Option String) (message : String → String) : LoadError :=
  match text with
  | none => .valueError
  | some text => .input (message text)

/-- `v is None or v == ""`. -/
def isBlankValue : Json → Bool
  | .null => true
  | .str s => s = ""
  | _ => false

/-- `_as_int_paise`. -/
def asIntPaise (v : Json) (ctx : String) : Except LoadError ℤ :=
  if isBlankValue v then .ok 0
  else
    match v with
    | .bool _ =>
      .error (inputError (reprValue U floatText v) fun text =>
        ctx ++ ": expected an integer paise value, got boolean " ++ text ++ ".")
    | .int i => .ok i
    | .float q =>
      if q.den = 1 then .ok q.num
      else .error (inputError (reprValue U floatText v) fun text =>
        ctx ++ ": expected an integer paise value, got non-integer " ++ text ++ ".")
    | .inf _ | .nan =>
      .error (inputError (reprValue U floatText v) fun text =>
        ctx ++ ": expected an integer paise value, got non-integer " ++ text ++ ".")
    | v =>
      match (strValue U floatText v).bind fun text => readInt D (strip text) with
      | some n => .ok n
      | none =>
        .error (inputError (reprValue U floatText v) fun text =>
          ctx ++ ": expected an integer paise value, got " ++ text ++ ".")

/-! ## Time stamps -/

/-- What `int(v)` raises. -/
inductive IntError
  | value
  | type
  | overflow
deriving DecidableEq, Repr

/-- `int(v)` of a value that is not blank. -/
def intOf : Json → Except IntError ℤ
  | .bool b => .ok (if b then 1 else 0)
  | .int i => .ok i
  | .float q => .ok (q.num.tdiv q.den)
  | .inf _ => .error .overflow
  | .nan => .error .value
  | .str s => (readInt D s).elim (.error .value) .ok
  | _ => .error .type

/-- `datetime.fromtimestamp(t, tz=UTC).replace(tzinfo=None)`: nothing where it is out of the calendar, an overflow out
    of 64 bits. -/
def fromTimestamp (t : ℤ) : Except LoadError (Option DateTime) :=
  if t < -2 ^ 63 ∨ 2 ^ 63 ≤ t then .error .overflowError
  else if InCalendar (719163 + t / 86400) then .ok (some ⟨719163 + t / 86400, (t % 86400).toNat⟩)
  else .ok none

/-- `_epoch_to_dt`. -/
def epochToDt (v : Json) : Except LoadError (Option DateTime) :=
  if isBlankValue v then .ok none
  else
    match intOf D v with
    | .ok t => fromTimestamp t
    | .error .overflow => .error .overflowError
    | .error _ => .ok none

/-! ## Rows -/

/-- `r.get(key)`, of a dictionary. -/
def rowGet (key : String) : Json → Json
  | .obj fields => (fields.lookup key).getD .null
  | .dict entries => (entries.lookup (.str key)).getD .null
  | _ => .null

/-- `str(v)`, or its error. -/
def shown (v : Json) : Except LoadError String := (strValue U floatText v).elim (.error .valueError) .ok

/-- `str(r[key]) if r.get(key) else None`. -/
def textField (v : Json) : Except LoadError (Option String) :=
  if v.truth then (shown U floatText v).map some else .ok none

/-- A paise field that may be absent. -/
def optionalPaise (v : Json) (ctx : String) : Except LoadError (Option ℤ) :=
  if isBlankValue v then .ok none else (asIntPaise D U floatText v ctx).map some

/-- One element of the report. -/
def loadRow (i : Nat) (r : Json) : Except LoadError ReconRow :=
  if ¬ r.isObj then .error (.input ("Recon report row " ++ toString i ++ " is not an object."))
  else if ¬ (rowGet "entity_id" r).truth ∨ ¬ (rowGet "type" r).truth then
    .error (.input ("Recon report row " ++ toString i ++
      ": missing entity_id/type (the (type, entity_id) join key)."))
  else do
    let here := "recon row " ++ toString i
    let entityId ← shown U floatText (rowGet "entity_id" r)
    let type ← shown U floatText (rowGet "type" r)
    let amountPaise ← asIntPaise D U floatText (rowGet "amount" r) (here ++ " amount")
    let feePaise ← asIntPaise D U floatText (rowGet "fee" r) (here ++ " fee")
    let taxPaise ← asIntPaise D U floatText (rowGet "tax" r) (here ++ " tax")
    let debitPaise ← asIntPaise D U floatText (rowGet "debit" r) (here ++ " debit")
    let creditPaise ← asIntPaise D U floatText (rowGet "credit" r) (here ++ " credit")
    let settlementId ← textField U floatText (rowGet "settlement_id" r)
    let settlementUtr ← textField U floatText (rowGet "settlement_utr" r)
    let settledAt ← epochToDt D (rowGet "settled_at" r)
    let createdAt ← epochToDt D (rowGet "created_at" r)
    let disputeId ← textField U floatText (rowGet "dispute_id" r)
    let orderId ← textField U floatText (rowGet "order_id" r)
    let method ← textField U floatText (rowGet "method" r)
    let description ← textField U floatText (rowGet "description" r)
    let authorized ← optionalPaise D U floatText (rowGet "authorized_amount" r) (here ++ " authorized_amount")
    let captured ← optionalPaise D U floatText (rowGet "captured_amount" r) (here ++ " captured_amount")
    return { entityId, type, amountPaise, feePaise, taxPaise, debitPaise, creditPaise, settlementId, settlementUtr,
             settledAt, createdAt, onHold := (rowGet "on_hold" r).truth, disputeId, orderId, method, description,
             rowId := some ("recon_" ++ toString i), authorizedAmountPaise := authorized,
             capturedAmountPaise := captured }

/-- The elements from a number on. -/
def loadRows : Nat → List Json → Except LoadError (List ReconRow)
  | _, [] => .ok []
  | i, r :: rs => do
    let row ← loadRow D U floatText i r
    let rows ← loadRows (i + 1) rs
    return row :: rows

/-- The keys of the envelope, in the order in which they are tried. -/
def envelopeKeys : List String := ["items", "rows", "recon", "data"]

/-- The first list in an envelope. -/
def listIn (data : Json) : Option (List Json) := envelopeKeys.findSome? fun key => (rowGet key data).asArr?

/-- The elements of the report: of the list in its envelope, or of the list that it is. -/
def elementsOf (data : Json) : Option (List Json) := if data.isObj then listIn data else data.asArr?

/-- `_load_recon_data`. -/
def loadReconData (data : Json) (source : String) : Except LoadError (List ReconRow) :=
  match elementsOf data with
  | none => .error (.input ("Recon report " ++ source ++ ": expected a JSON array of settled transactions."))
  | some items => do
    let rows ← loadRows D U floatText 0 items
    if rows = [] then .error (.input ("Recon report " ++ source ++ " contained no rows.")) else .ok rows

end Loading

end Untangle
