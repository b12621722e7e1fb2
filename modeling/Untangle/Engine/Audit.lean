import Untangle.Engine.Provenance
import Untangle.Engine.Text
import Untangle.Lib.JsonRead

/-!
# `Engine.Audit` — the ledger on disk

`AuditLedger.write` and `AuditLedger.verify` of `engine/audit.py`: one line of canonical JSON for every entry, and the
check that every line names the hash of the line before it and carries its own. A file is its text; one that is no
UTF-8 has none, and reading it raises.
-/

namespace Untangle

open Lib

/-! ## Writing -/

/-- The dictionary of an entry: its hash is put into the body that it was taken over. -/
def AuditEntry.toDict (e : AuditEntry) : Json :=
  .obj
    [("seq", .int e.seq),
      ("event", .str e.event),
      ("payload", e.payload),
      ("prev", .str e.prev),
      ("hash", .str e.hash)]

/-- `AuditLedger.write`: the text of the file. -/
def AuditLedger.write (H : Hashing) (ledger : AuditLedger) : String :=
  String.join (ledger.entries.map fun e => H.canonical e.toDict ++ "\n")

/-! ## Reading -/

/-- The line breaks of a text, all of them as line feeds; `afterReturn` says that the carriage return of a pair has
    been read. -/
def universalNewlines (afterReturn : Bool) : List Char → List Char
  | [] => []
  | c :: cs =>
    if c = '\r' then '\n' :: universalNewlines true cs
    else if c = '\n' ∧ afterReturn then universalNewlines false cs
    else c :: universalNewlines false cs

/-- The lines of a file, stripped; what follows the last line break is a line too, and blank if there is nothing. -/
def fileLines (text : String) : List String :=
  ((universalNewlines false text.toList).splitOn '\n').map fun line => strip (String.ofList line)

/-- What reading a line can raise. -/
inductive AuditError
  /-- `json.JSONDecodeError` -/
  | decode
  /-- `KeyError` -/
  | missingHash
  /-- `AttributeError` or `TypeError` -/
  | noDictionary
deriving DecidableEq, Repr

/-- `e.pop("hash")`, and what it leaves. -/
def popHash : Json → Except AuditError (Json × Json)
  | .obj fields =>
    match fields.lookup "hash" with
    | none => .error .missingHash
    | some stored => .ok (stored, .obj (fields.filter fun p => p.1 ≠ "hash"))
  | _ => .error .noDictionary

section Verify

variable (H : Hashing)

/-- The loop over the lines: `prev` is what the next entry has to name. -/
def verifyLines : String → List String → Except AuditError Bool
  | _, [] => .ok true
  | prev, line :: lines =>
    if line = "" then verifyLines prev lines
    else
      match Json.loads line with
      | none => .error .decode
      | some e =>
        match popHash e with
        | .error err => .error err
        | .ok (stored, body) =>
          if (body.get "prev").isStr prev = false then .ok false
          else if stored.isStr (auditHash H prev body) = false then .ok false
          else verifyLines (auditHash H prev body) lines

/-- `AuditLedger.verify`, of the text of the file. -/
def AuditLedger.verify (text : String) : Except AuditError Bool := verifyLines H genesis (fileLines text)

end Verify

/-- The entries that a file has, if every line but the blank ones is JSON. -/
def fileEntries (text : String) : Option (List Json) := ((fileLines text).filter (· ≠ "")).mapM Json.loads

end Untangle
