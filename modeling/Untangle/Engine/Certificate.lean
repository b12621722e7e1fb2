import Untangle.Engine.Verifier

/-!
# `Engine.Certificate` — the period close certificate

Model of `engine/certificate.py` without a signing key: a certificate summarises a report, its envelope carries the
hash of the certificate, and the verifier re-derives the hash, the binding to an attached report and the checks on
the report's packets. Without a key a signature that is present cannot be authenticated.
-/

namespace Untangle

open Lib

/-- The digits of a number with commas between the thousands. -/
def groupedNat (n : Nat) : String := String.ofList (groupDigits (toString n).toList.reverse).reverse

/-- `_inr`: exact integer paise, and nothing else. -/
def certificateInr : Json → Except PyError String
  | .int paise => .ok ("₹" ++ (if paise < 0 then "-" else "") ++ groupedNat (paise.natAbs / 100) ++ "." ++
      padDigits 2 (paise.natAbs % 100))
  | _ => .error (.value "Certificate money must be integer paise")

/-- `v.get(key, default)`, which only an object has. -/
def getAttr (v : Json) (key : String) (default : Json) : Except PyError Json :=
  if v.isObj then .ok ((v.get? key).getD default)
  else .error (.attribute ("'" ++ v.typeName ++ "' object has no attribute 'get'"))

/-- A key of a dictionary is a value that can be hashed. Special floats, which JSON has none of, are left out. -/
def keyOf : Json → Except PyError DictKey
  | .str s => .ok (.str s)
  | .null => .ok .null
  | .bool b => .ok (.bool b)
  | .int i => .ok (.int i)
  | .float q => .ok (.float q)
  | .inf _ | .nan => .error (.value "special float key")
  | v => .error (.type ("unhashable type: '" ++ v.typeName ++ "'"))

/-- One element of a sequence of pairs that `dict` is called on. -/
def pairOf (p : Json × Nat) : Except PyError (DictKey × Json) :=
  match iterate p.1 with
  | .ok [key, v] => (keyOf key).map fun key => (key, v)
  | .ok items => .error (.value ("dictionary update sequence element #" ++ toString p.2 ++ " has length " ++
      toString items.length ++ "; 2 is required"))
  | .error _ => .error (.type ("cannot convert dictionary update sequence element #" ++ toString p.2 ++
      " to a sequence"))

/-- What keys are compared by: numbers by their value. -/
def normalKey (key : DictKey) : DictKey := (key.number?.map DictKey.float).getD key

/-- A dictionary of pairs: equal keys are one, the first of them with the last value. -/
def entriesOf (pairs : List (DictKey × Json)) : List (DictKey × Json) :=
  (Dict.gather (fun p => some (normalKey p.1)) (fun p (o : Option (DictKey × Json)) =>
    ((o.map Prod.fst).getD p.1, p.2)) pairs).items.map Prod.snd

/-- The text that a key is. -/
def textKey? : DictKey → Option String
  | .str s => some s
  | _ => none

/-- A dictionary whose keys are texts is an object. -/
def dictionary (entries : List (DictKey × Json)) : Json :=
  match entries.mapM fun p => (textKey? p.1).map fun key => (key, p.2) with
  | some fields => .obj fields
  | none => .dict entries

/-- `dict(v)`. -/
def toDictionary (v : Json) : Except PyError Json :=
  match v with
  | .obj fields => .ok (.obj fields)
  | .dict entries => .ok (.dict entries)
  | v => do
    let items ← iterate v
    let pairs ← items.zipIdx.mapM pairOf
    return dictionary (entriesOf pairs)

/-- `sort_keys` can sort the keys: no two of them, or numbers only. -/
def sortableKeys : Json → Bool
  | .dict entries => entries.length ≤ 1 ∨ entries.all fun p => p.1.number?.isSome
  | _ => true

def certificateNote : String :=
  "Tamper-evident content hash (SHA-256) over the certificate. Not a cryptographic " ++
  "signature. Packet checks can be re-run against the attached bound report; this does not " ++
  "re-audit the original bank, settlement, or ledger source files."

/-- The results of the packets, without the report-level ones. -/
def packetOnly (results : List VerificationResult) : List VerificationResult :=
  results.filter fun r => !"report:".toList.isPrefixOf r.packetLineKey.toList

section Certificate

variable (H : Hashing) (U : Unicode) (repr : Json → String)

/-- What a certificate says about the evidence pack: it goes with the schema version, or neither is there. -/
def checkProvenance (schema pack : Json) : Except PyError Unit :=
  if schema.isNull then
    if pack.isNull then .ok ()
    else .error (.value "Schema-less report cannot carry evidence-pack provenance")
  else if schema.isStr "1.1.0" then
    if !pack.isObj then .error (.value "Schema 1.1.0 report must carry evidence-pack provenance")
    else
      match resolvePackProvenance pack with
      | .ok _ => .ok ()
      | .error e => .error (.value e.message)
  else .error (.value ("Unsupported report schema version: " ++ repr schema))

/-- `max(0, proven - reconciled)`; both have been formatted as integers. -/
def unresolvedPaise (proven reconciled : Json) : Json :=
  .int (max 0 (proven.asInt?.getD 0 - reconciled.asInt?.getD 0))

/-- `build_close_certificate`. -/
def buildCloseCertificate (report : Json) : Except PyError (List (String × Json)) := do
  if !report.isObj then
    throw (.value "Report must be a dictionary")
  let totals := (report.get? "totals").getD (.obj [])
  let config := (report.get? "config").getD (.obj [])
  let periodRecords ← getAttr totals "n_bank_lines" (.int 0)
  let byRailCount ← getAttr totals "by_rail_count" (.obj [])
  let byRailPaise ← getAttr totals "by_rail_paise" (.obj [])
  let provenCount ← getAttr byRailCount "razorpay_settlement" (.int 0)
  let provenPaise ← getAttr byRailPaise "razorpay_settlement" (.int 0)
  let provenInr ← certificateInr provenPaise
  let reconciledCount ← getAttr totals "reconciled_count" (.int 0)
  let reconciledPaise ← getAttr totals "reconciled_paise" (.int 0)
  let reconciledInr ← certificateInr reconciledPaise
  let unresolvedCount ← getAttr totals "unresolved_rzp_count" (.int 0)
  let unresolvedInr ← certificateInr (unresolvedPaise provenPaise reconciledPaise)
  let feeGstPaise ← getAttr totals "fee_gst_recoverable_paise" (.int 0)
  let feeGstInr ← certificateInr feeGstPaise
  let exceptionCount ← getAttr totals "exception_count" (.int 0)
  let byReason ← getAttr totals "exceptions_by_reason" (.obj [])
  let exceptionsByReason ← toDictionary byReason
  let results ← verifyReport U repr report
  let packets := packetOnly results
  let passed := packets.filter VerificationResult.ok
  let auditRootValid := ((results.find? fun r => r.packetLineKey = "report:audit_root").map
    VerificationResult.ok).getD false
  let version ← getAttr config "engine_version" (.str "1.1.0")
  let seed ← getAttr config "seed" (.int 42)
  let auditRoot := (report.get? "audit_root").getD (.str "")
  let pack ← getAttr config "evidence_pack" .null
  let schema ← getAttr config "report_schema_version" .null
  checkProvenance repr schema pack
  return [
    ("summary", .str ("Period closed: " ++ pyStr repr provenCount ++ " credits proven Razorpay (" ++ provenInr ++
      "), " ++ unresolvedInr ++ " unresolved pending evidence, " ++ toString (packets.length - passed.length) ++
      " unverifiable proof packets.")),
    ("certificate_schema_version", schema),
    ("evidence_pack", pack),
    ("period_records", periodRecords),
    ("proven_razorpay_count", provenCount),
    ("proven_razorpay_inr", .str provenInr),
    ("reconciled_count", reconciledCount),
    ("reconciled_inr", .str reconciledInr),
    ("unresolved_count", unresolvedCount),
    ("unresolved_inr", .str unresolvedInr),
    ("fee_gst_recoverable_inr", .str feeGstInr),
    ("exception_count", exceptionCount),
    ("exceptions_by_reason", exceptionsByReason),
    ("verification", .obj [("packets_verified", .int packets.length), ("packets_passed", .int passed.length)]),
    ("engine_version", version),
    ("seed", seed),
    ("audit_root", auditRoot),
    ("generated_from_hashes", .obj
      [("audit_root", auditRoot),
        ("audit_root_valid", .bool auditRootValid),
        ("packets_total", .int packets.length),
        ("packets_verified", .int passed.length)])]

/-- `issue_certificate`: the envelope, with the report's hash inside the certificate. -/
def issueCertificate (report : Json) : Except PyError (List (String × Json)) := do
  let body ← buildCloseCertificate U repr report
  if !(body.all fun p => sortableKeys p.2) then
    throw (.type "'<' not supported between instances of different types")
  let cert : Json := .obj (body ++ [("report_sha256", .str (H.sha256 (H.canonical report)))])
  return [
    ("certificate", cert),
    ("content_sha256", .str (H.sha256 (H.canonical cert))),
    ("signed", .bool false),
    ("note", .str certificateNote)]

/-- What the verification of an envelope returns. -/
structure CertificateVerification where
  ok : Bool
  contentHash : String
  claimedHash : Json
  hashMatches : Bool
  signatureValid : Option Bool
  signed : Bool
  authenticated : Bool
  attestedVerification : Json
  packetsVerified : Option Nat
  packetsPassed : Option Nat
  reportBindingValid : Option Bool
  evidencePack : Json
  evidencePackValid : Bool
  legacy : Bool
  summary : Json
  auditRoot : Json

/-- The verdict on an attached report: its binding, its pack, and the packets verified and passed. -/
structure AttachedReport where
  bindingValid : Option Bool
  packValid : Bool
  packets : Option (Nat × Nat)

/-- Schema version and evidence pack are both there or both absent. -/
def pairedMetadata (schema pack : Json) : Bool := schema.isNull = pack.isNull

/-- The re-verification of an attached report; whatever it raises makes the attachment malformed. -/
def verifyAttached (cert report : Json) (packValid : Bool) : AttachedReport :=
  let hashOk := (cert.get "report_sha256").isStr (H.sha256 (H.canonical report))
  let config := (report.get? "config").getD (.obj [])
  if !config.isObj then ⟨some false, packValid, none⟩
  else
    let pack := config.get "evidence_pack"
    let schema := config.get "report_schema_version"
    let agrees := pairedMetadata schema pack && Json.same (cert.get "evidence_pack") pack
    match verifyReport U repr report with
    | .error _ => ⟨some false, packValid && agrees, none⟩
    | .ok results =>
      let allOk := results.all VerificationResult.ok
      let packets := packetOnly results
      ⟨some (hashOk && agrees && (!(schema.isStr "1.1.0") || allOk)), packValid && agrees,
        some (packets.length, (packets.filter VerificationResult.ok).length)⟩

/-- The report an envelope carries, if any. -/
def attachedReport (payload cert : Json) (packValid : Bool) : AttachedReport :=
  match payload.get? "report" with
  | none => ⟨none, packValid, none⟩
  | some report =>
    if report.isObj then verifyAttached H U repr cert report packValid else ⟨some false, packValid, none⟩

/-- A certificate of schema 1.1.0 names its pack by strings; a legacy one names none. -/
def certificatePackValid (cert : Json) : Bool × Bool :=
  let pack := cert.get "evidence_pack"
  let schema := cert.get "certificate_schema_version"
  let modern := schema.isStr "1.1.0" || (pack.get? "schema_version").isSome
  let valid :=
    if modern then
      (pack.get "pack_id").asStr?.isSome && (pack.get "version").asStr?.isSome &&
        (pack.get "schema_version").asStr?.isSome
    else schema.isNull && pack.isNull
  (modern, valid)

/-- The signature of an envelope is claimed exactly when it is there, and is then a text. -/
def signatureContract (payload : Json) : Bool :=
  match payload.get "signed", payload.get? "signature" with
  | .bool true, some (.str signature) => signature ≠ ""
  | .bool false, none => true
  | _, _ => false

/-- `verify_certificate`; the error is the one it returns for a payload that is no object. -/
def verifyCertificate (payload : Json) : Except String CertificateVerification :=
  if !payload.isObj then .error "payload is not a dict"
  else
    let cert := if (payload.get "certificate").isObj then payload.get "certificate" else payload
    let recomputed := H.sha256 (H.canonical cert)
    let claimed := payload.get "content_sha256"
    let hashMatches := claimed.isStr recomputed
    let signaturePresent := (payload.get? "signature").isSome
    let (modern, packValid) := certificatePackValid cert
    let attached := attachedReport H U repr payload cert packValid
    let packetsOk := attached.packets.all fun p => p.2 = p.1
    .ok
      { ok := hashMatches && signatureContract payload && !signaturePresent && attached.bindingValid ≠ some false &&
          packetsOk && attached.packValid
        contentHash := recomputed
        claimedHash := claimed
        hashMatches := hashMatches
        signatureValid := if signaturePresent then some false else none
        signed := (payload.get "signature").truth
        authenticated := false
        attestedVerification := cert.get "verification"
        packetsVerified := attached.packets.map Prod.fst
        packetsPassed := attached.packets.map Prod.snd
        reportBindingValid := attached.bindingValid
        evidencePack := cert.get "evidence_pack"
        evidencePackValid := attached.packValid
        legacy := !modern
        summary := cert.get "summary"
        auditRoot := cert.get "audit_root" }

end Certificate

end Untangle
