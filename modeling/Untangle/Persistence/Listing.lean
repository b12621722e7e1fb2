import Mathlib.Data.Prod.Lex
import Untangle.Engine.Text
import Untangle.Lib.Base64
import Untangle.Lib.Keyset
import Untangle.Lib.Timestamp
import Untangle.Persistence.Job

/-!
# `Persistence.Listing` — jobs and runs, page by page

Model of `persistence/repositories/cursor.py`, of `list_jobs` in `repositories/job.py` and of `list_runs_cursor` in
`repositories/run.py`. A cursor names the last row of a page by its creation time and its id; the query asks for the
rows below it. The database compares creation times as points in time, and returns a row with all its columns: the ones
that a listing reads are fields here, and the others are a parameter.
-/

namespace Untangle

open Lib

/-- What a listing raises. -/
inductive ListingError
  | invalidCursor (cursor : String)
  | index
deriving DecidableEq, Repr

/-! ## Cursors -/

/-- `encode_cursor`. -/
def encodeCursor (dt : Timestamp) (recordId : ℤ) : String :=
  let raw := dt.isoformat ++ "|" ++ toString recordId
  String.ofList (Base64.encode raw.toUTF8.data.toList)

/-- `int(text)`, of ASCII digits. -/
def parseInt (text : String) : Option ℤ := do
  let (negative, body) := readSign (strip text).toList
  let digits ← removeUnderscores false body
  let n ← readDigits digits
  return if negative then -(n : ℤ) else n

/-- What a cursor text names. -/
def readCursor (cursor : String) : Option (Timestamp × ℤ) := do
  if cursor.toList.any fun c => 128 ≤ c.toNat then none
  let bytes ← Base64.decode cursor.toList
  let raw ← String.fromUTF8? ⟨bytes.toArray⟩
  -- split at the first bar
  match raw.toList.dropWhile (· ≠ '|') with
  | [] => none
  | _ :: idText => do
    let dt ← Timestamp.fromIsoformat (raw.toList.takeWhile (· ≠ '|'))
    let recordId ← parseInt (String.ofList idText)
    return (dt.inUtc, recordId)

/-- `decode_cursor`. -/
def decodeCursor (cursor : String) : Except ListingError (Timestamp × ℤ) :=
  match readCursor cursor with
  | some named => .ok named
  | none => .error (.invalidCursor cursor)

/-! ## Listings -/

/-- A row of a tenant's table. -/
structure TenantRow (α : Type) where
  id : ℤ
  organisationId : ℤ
  createdAt : Timestamp
  columns : α

section Listing

variable {α : Type}

/-- What the rows are ordered by. -/
def TenantRow.key (r : TenantRow α) : ℤ ×ₗ ℤ := toLex (r.createdAt.instant, r.id)

/-- `ORDER BY created_at DESC, id DESC`. -/
def newestFirst (rows : List (TenantRow α)) : List (TenantRow α) := rows.insertionSort fun a b => b.key ≤ a.key

/-- The rows before the time and the id of a cursor. -/
def beforeCursor (cursor : Timestamp × ℤ) (r : TenantRow α) : Bool :=
  r.createdAt.instant < cursor.1.instant || r.createdAt.instant = cursor.1.instant && r.id < cursor.2

/-- The rows that a page is taken of. -/
def atCursor (cursor : Option String) (rows : List (TenantRow α)) : Except ListingError (List (TenantRow α)) :=
  match cursor with
  | none => .ok rows
  | some text =>
    if text = "" then .ok rows
    else (decodeCursor text).map fun named => rows.filter (beforeCursor named)

/-- A page of the rows that a statement selects, and the cursor of the next one. -/
def listByCursor (selected : List (TenantRow α)) (limit : Nat) (cursor : Option String) :
    Except ListingError (List (TenantRow α) × Option String) := do
  let rows := (newestFirst (← atCursor cursor selected)).take (limit + 1)
  if limit < rows.length then
    let rows := rows.take limit
    match rows.getLast? with
    | some last => return (rows, some (encodeCursor last.createdAt last.id))
    | none => .error .index
  else return (rows, none)

/-- `scoped_select`. -/
def scopedSelect (organisationId : ℤ) (table : List (TenantRow α)) : List (TenantRow α) :=
  table.filter fun r => r.organisationId = organisationId

end Listing

/-- `list_jobs`. -/
def listJobs (table : List (TenantRow ReconciliationJob)) (organisationId : ℤ) (limit : Nat) (cursor : Option String) :
    Except ListingError (List (TenantRow ReconciliationJob) × Option String) :=
  listByCursor (scopedSelect organisationId table) limit cursor

/-- The columns of a run. -/
structure RunColumns where
  run : ReconciliationRun
  isDeleted : Bool

/-- `list_runs_cursor`. -/
def listRunsCursor (table : List (TenantRow RunColumns)) (organisationId : ℤ) (limit : Nat) (cursor : Option String) :
    Except ListingError (List (TenantRow RunColumns) × Option String) :=
  listByCursor ((scopedSelect organisationId table).filter fun r => !r.columns.isDeleted) limit cursor

end Untangle
