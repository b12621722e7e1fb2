import Untangle.Engine.Certificate
import Untangle.Engine.Packs
import Untangle.Lib.JsonOrder

/-!
# `Webapp.Presentation` — the presentation boundary

Model of `webapp/presentation.py`: a report of any shape is validated and projected to the payload the interface
reads. A violated precondition is a `PresentationSchemaError`; anything else that the interpreter raises on a malformed
value is a `PyError`. The attributions are sorted by rail, confidence and key, whatever values these are; the evidence
of an attribution is only read when its verdict stands on the page.
-/

namespace Untangle

open Lib

def supportedReportSchemas : List String := ["1.1.0"]
def presentationSchemaVersion : String := "1.0.0"
def maxVerdictsLimit : ℤ := 100

inductive PresentationError
  | schema (message : String)
  | raised (e : PyError)
deriving DecidableEq, Repr

/-- `PresentationSchemaError`, raised. -/
def schemaError {α : Type} (message : String) : Except PresentationError α := .error (.schema message)

section Presentation

variable (H : Hashing) (U : Unicode) (repr : Json → String)

/-! ## Validation of the report -/

def requiredTotals : List String :=
  ["n_bank_lines", "total_credit_paise", "attributed", "abstained", "reconciled_count", "reconciled_paise",
    "fee_gst_recoverable_paise"]

/-- One required total: there, an integer, and not negative. -/
def validateTotal (totals : Json) (field : String) : Except PresentationError Unit :=
  match totals.get? field with
  | none => schemaError ("Report totals missing required field: " ++ field)
  | some v =>
    match v.asInt? with
    | none => schemaError ("Report totals field " ++ U.repr field ++ " is not an integer (got " ++ v.typeName ++ ": " ++
        repr v ++ ")")
    | some n =>
      if n < 0 then schemaError ("Report totals field " ++ U.repr field ++ " cannot be negative (" ++ toString n ++ ")")
      else .ok ()

/-- A map from rails, if there is one: every value a non-negative integer. -/
def validateRailMap (totals : Json) (field : String) : Except PresentationError Unit :=
  match totals.get? field with
  | none => .ok ()
  | some v =>
    match v.asObj? with
    | none => schemaError ("Report totals '" ++ field ++ "' must be a dictionary")
    | some fields => fields.forM fun p =>
        if p.2.asInt?.any fun n => 0 ≤ n then .ok ()
        else schemaError ("Report totals " ++ field ++ "[" ++ U.repr p.1 ++ "] must be a non-negative integer")

/-- The schema version of the report, `legacy` when it has none. -/
def validateSchemaVersion (report : Json) : Except PresentationError (Bool × String) :=
  match (report.get "config").get? "report_schema_version" with
  | none => .ok (true, "legacy")
  | some version =>
    match version.asStr?.filter fun v => v ∈ supportedReportSchemas with
    | some v => .ok (false, v)
    | none => schemaError ("Unsupported report schema version: " ++ repr version)

/-- `_validate_report_structure`: is the report a legacy one, and its schema version. -/
def validateReportStructure (report : Json) : Except PresentationError (Bool × String) := do
  if !report.isObj then
    schemaError "Report must be a dictionary"
  let totals := report.get "totals"
  if !totals.isObj then
    schemaError "Report missing or invalid 'totals' object"
  if (report.get "attributions").asArr?.isNone then
    schemaError "Report missing or invalid 'attributions' list"
  requiredTotals.forM (validateTotal U repr totals)
  validateRailMap U totals "by_rail_count"
  validateRailMap U totals "by_rail_paise"
  validateSchemaVersion repr report

/-- `_validate_evidence_pack`. -/
def validateEvidencePack (config : Json) (isLegacy : Bool) : Json :=
  let info := config.get "evidence_pack"
  let shown := fun (packId version schema : Json) (status : String) => Json.obj
    [("pack_id", packId), ("version", version), ("schema_version", schema), ("status", .str status)]
  if isLegacy ∨ !info.isObj then .null
  else
    match info.get "pack_id", info.get "version", info.get "schema_version" with
    | .str packId, .str version, .str schema =>
      shown (.str packId) (.str version) (.str schema)
        (if packRegistry.any fun p => p.provenance.packId = packId ∧ p.provenance.version = version then "registered"
        else "unregistered")
    | packId, version, schema =>
      shown (.str (pyStr repr packId)) (.str (pyStr repr version)) (.str (pyStr repr schema)) "unregistered"

/-! ## Validation of the recovery plan -/

/-- A validated recovery action. -/
structure CleanAction where
  actionType : String
  description : String
  recoverablePaise : ℤ
  debitExposurePaise : ℤ
  gainPerCost : ℚ
  /-- `none` when the action lists nothing. -/
  resolves : Option (List String)

structure CleanPlan where
  actions : List CleanAction := []
  recoverableIfActionedPaise : ℤ := 0
  unresolvedCreditPaise : ℤ := 0
  unresolvedDebitPaise : ℤ := 0

/-- A text field of an action. -/
def actionText (i : Nat) (action : Json) (name : String) : Except PresentationError String :=
  match (action.get name).asStr? with
  | some s => .ok s
  | none => schemaError ("Recovery action " ++ toString i ++ " field " ++ U.repr name ++ " must be a string")

/-- An amount of an action. -/
def actionPaise (i : Nat) (action : Json) (name : String) : Except PresentationError ℤ :=
  match (action.get name).asInt?.filter fun n => 0 ≤ n with
  | some n => .ok n
  | none => schemaError ("Recovery action " ++ toString i ++ " field " ++ U.repr name ++
      " must be a non-negative integer")

/-- The gain of an action: an integer is converted to a float to be tested. -/
def actionGain (i : Nat) (action : Json) : Except PresentationError ℚ :=
  let refused : Except PresentationError ℚ :=
    schemaError ("Recovery action " ++ toString i ++ " field 'gain_per_cost' must be finite and non-negative")
  match action.get "gain_per_cost" with
  | .int n =>
    match Float64.ofRat n with
    | .finite q => if n < 0 then refused else .ok q
    | _ => .error (.raised (.overflow "int too large to convert to float"))
  | .float q => if q < 0 then refused else .ok q
  | _ => refused

/-- The keys an action resolves. -/
def actionResolves (i : Nat) (action : Json) : Except PresentationError (Option (List String)) :=
  match action.get? "resolves" with
  | none => .ok none
  | some v =>
    match v.asArr?.bind fun items => items.mapM Json.asStr? with
    | some keys => .ok (some keys)
    | none => schemaError ("Recovery action " ++ toString i ++ " field 'resolves' must be a list of strings")

def validateAction (i : Nat) (action : Json) : Except PresentationError CleanAction := do
  if !action.isObj then
    schemaError ("Recovery action " ++ toString i ++ " must be a dictionary")
  let actionType ← actionText U i action "action_type"
  let description ← actionText U i action "description"
  let recoverable ← actionPaise U i action "recoverable_paise"
  let exposure ← actionPaise U i action "debit_exposure_paise"
  let gain ← actionGain i action
  let resolves ← actionResolves i action
  return ⟨actionType, description, recoverable, exposure, gain, resolves⟩

/-- `required_non_negative_int`. -/
def planPaise (plan : Json) (name : String) : Except PresentationError ℤ :=
  match plan.get? name with
  | none => schemaError ("Recovery plan missing required field " ++ U.repr name)
  | some v =>
    match v.asInt?.filter fun n => 0 ≤ n with
    | some n => .ok n
    | none => schemaError ("Recovery plan field " ++ U.repr name ++ " must be a non-negative integer")

/-- `_validate_recovery_plan`. -/
def validateRecoveryPlan (plan : Json) : Except PresentationError CleanPlan :=
  if plan.isNull then .ok {}
  else do
    if !plan.isObj then
      schemaError "Report 'recovery_plan' must be a dictionary"
    match ((plan.get? "actions").getD (.arr [])).asArr? with
    | none => schemaError "Recovery plan 'actions' must be a list"
    | some actions => do
      let clean ← actions.zipIdx.mapM fun p => validateAction U p.2 p.1
      let recoverable ← planPaise U plan "recoverable_if_actioned_paise"
      let credit ← planPaise U plan "unresolved_credit_paise"
      let debit ← planPaise U plan "unresolved_debit_paise"
      return ⟨clean, recoverable, credit, debit⟩

/-! ## The certificate -/

/-- `_build_certificate_status`: the status, and why a verification failed. -/
def certificateStatus (status : String) (v : Option CertificateVerification) (reasons : List String) : Json :=
  .obj
    [("status", .str status),
      ("hash_bound", .bool ((v.map CertificateVerification.hashMatches).getD false)),
      ("authenticated", .bool ((v.map CertificateVerification.authenticated).getD false)),
      ("content_sha256", (v.map fun v => if v.claimedHash.truth then v.claimedHash else .str v.contentHash).getD .null),
      ("report_binding_valid", .bool ((v.bind CertificateVerification.reportBindingValid).getD false)),
      ("evidence_pack_valid", .bool ((v.map CertificateVerification.evidencePackValid).getD false)),
      ("packets_verified", .int ((v.bind CertificateVerification.packetsVerified).getD 0)),
      ("packets_passed", .int ((v.bind CertificateVerification.packetsPassed).getD 0)),
      ("failure_reasons", .arr (reasons.map .str))]

def failureReasons (v : CertificateVerification) : List String :=
  (if v.hashMatches then [] else ["content_hash_mismatch"]) ++
  (if v.reportBindingValid = some true then [] else ["report_binding_mismatch"]) ++
  (if v.evidencePackValid then [] else ["evidence_pack_mismatch"]) ++
  (match v.packetsVerified, v.packetsPassed with
  | some verified, some passed => if passed < verified then ["packet_verification_failed"] else []
  | _, _ => [])

/-- `d[key] = v`. -/
def setField (key : String) (v : Json) : Json → Json
  | .obj fields => .obj (Dict.upsertItems key (fun _ => v) fields)
  | d => d

def buildCertificateStatus (report : Json) (certificate : Option Json) : Json :=
  match certificate with
  | none => certificateStatus "absent" none []
  | some certificate =>
    if !certificate.isObj then certificateStatus "failed" none ["malformed_certificate_payload"]
    else
      match verifyCertificate H U repr (setField "report" report certificate) with
      | .error _ => certificateStatus "failed" none ["content_hash_mismatch", "report_binding_mismatch",
          "evidence_pack_mismatch"]
      | .ok v =>
        let status := if v.ok then (if v.legacy then "legacy" else "verified") else "failed"
        certificateStatus status (some v) (failureReasons v)

/-! ## Line verdicts -/

/-- What is read of an attribution: fields that may be absent, and the signals of its evidence. -/
structure AttributionView where
  lineKey : Option Json
  rail : Option Json
  confidence : Option Json
  tier : Option Json
  abstained : Option Json
  signals : Except PyError (List Json)

/-- `[e.get("signal", "") for e in attr.get("evidence", []) if isinstance(e, dict)]`. -/
def evidenceSignals (a : Json) : Except PyError (List Json) := do
  let evidence ← iterate ((a.get? "evidence").getD (.arr []))
  return (evidence.filter Json.isObj).map fun e => (e.get? "signal").getD (.str "")

def attributionView (a : Json) : Except PresentationError AttributionView :=
  if a.isObj then
    .ok
      { lineKey := a.get? "line_key"
        rail := a.get? "rail"
        confidence := a.get? "confidence"
        tier := a.get? "tier"
        abstained := a.get? "abstained"
        signals := evidenceSignals a }
  else .error (.raised (.attribute ("'" ++ a.typeName ++ "' object has no attribute 'get'")))

/-- An absent key is read as the empty text. -/
def AttributionView.readKey (v : AttributionView) : Json := v.lineKey.getD (.str "")

/-- `(rail, confidence, line_key)`. -/
def AttributionView.sortKey (v : AttributionView) : List Json :=
  [v.rail.getD (.str ""), v.confidence.getD (.float 0), v.readKey]

/-- `sorted(items)`. -/
def sortedBy {α : Type} (lt? : α → α → Option Bool) (items : List α) : Except PresentationError (List α) :=
  match sorted lt? items with
  | some items => .ok items
  | none => .error (.raised (.type "'<' not supported between these instances"))

/-- `float(v)`. -/
def toFloat : Json → Except PresentationError Float64
  | .bool b => .ok (.finite b.toInt)
  | .int n =>
    match Float64.ofRat n with
    | .finite q => .ok (.finite q)
    | _ => .error (.raised (.overflow "int too large to convert to float"))
  | .float q => .ok (.finite q)
  | .inf negative => .ok (.inf negative)
  | .nan => .ok .nan
  | .str s =>
    match readFloat (strip s) with
    | some x => .ok x
    | none => .error (.raised (.value ("could not convert string to float: " ++ U.repr s)))
  | v => .error (.raised (.type ("float() argument must be a string or a real number, not '" ++ v.typeName ++ "'")))

/-- `round(x, 4)`. -/
def roundedJson : Float64 → Json
  | .finite q => .float (roundTo 4 q)
  | .inf negative => .inf negative
  | .nan => .nan

/-- `text in signals`. -/
def signalled (text : String) (signals : List Json) : Bool := signals.any fun s => s.isStr text

/-- `_categorize_reason`. -/
def categorizeReason (signals : List Json) (rail : Json) (abstained : Bool) : String :=
  if abstained || rail.isStr "UNKNOWN" then
    if signalled "decoy_marker" signals then "Decoy marker suppressed gateway resemblance"
    else if signalled "competing_explanations" signals then "Competing payment rail signals in conflict"
    else "Unattributed ambiguous signals"
  else if signalled "utr_exact" signals then "Exact settlement reference matched"
  else if signalled "utr_suffix" signals then "Corroborated settlement reference suffix matched"
  else if signalled "split_reconstruction" signals then "Reconstructed split settlement leg"
  else if signalled "amount_corr" signals && signalled "value_date_proximity" signals then
    "Settlement amount and date proximity matched"
  else if signalled "amount_corr" signals then "Settlement amount matched"
  else if signalled "narration_brand_rzp" signals || signalled "ifsc_ratn" signals then
    "Gateway nodal branding and IFSC matched"
  else if rail.isStr "direct_upi" then "Direct UPI clearing pattern matched"
  else if rail.isStr "cod_remittance" then "COD logistics remittance pattern matched"
  else if rail.isStr "other_gateway" then "Alternate payment gateway pattern matched"
  else if rail.isStr "unrelated" then "Unrelated counterparty or operational pattern matched"
  else "Payment rail pattern matched"

/-- A four-digit ordinal. -/
def itemId (ordinal : Nat) : String := "item_" ++ padDigits 4 ordinal

/-- A value that is looked up in a set, or put into one. -/
def setElement (v : Json) : Except PresentationError Json :=
  if v.hashable then .ok v else .error (.raised (.type ("unhashable type: '" ++ v.typeName ++ "'")))

def verdictItem (reconciledKeys : List Json) (ordinal : Nat) (v : AttributionView) : Except PresentationError Json := do
  let signals ← v.signals.mapError .raised
  let rail := v.rail.getD (.str "UNKNOWN")
  let abstained := (v.abstained.getD (.bool false)).truth
  let confidence ← toFloat U (v.confidence.getD (.float 0))
  let shown ← sortedBy Json.lt? signals
  let key ← setElement v.readKey
  return .obj
    [("item_id", .str (itemId ordinal)),
      ("rail", rail),
      ("confidence", roundedJson confidence),
      ("tier", .str (pyStr repr (v.tier.getD (.str "none")))),
      ("abstained", .bool abstained),
      ("signals", .arr shown),
      ("reason_category", .str (categorizeReason signals rail abstained)),
      ("reconciled", .bool (reconciledKeys.any fun k => key.same k))]

/-- The key of a reconciliation and whether it is balanced, `none` for what is no dictionary. -/
def reconciliationView (r : Json) : Option (Json × Bool) :=
  if r.isObj then some (r.get "line_key", ((r.get? "balanced").getD (.bool false)).truth) else none

/-- The set of the keys of balanced reconciliations. -/
def reconciledKeys (report : Json) : Except PresentationError (List Json) := do
  let recs ← (iterate ((report.get? "reconciliations").getD (.arr []))).mapError .raised
  ((recs.filterMap reconciliationView).filter Prod.snd).mapM fun p => setElement p.1

/-! ## The payload -/

def railLabel : Rail → String
  | .razorpaySettlement => "Razorpay settlement"
  | .otherGateway => "Other gateway"
  | .directUpi => "Direct UPI"
  | .codRemittance => "COD remittance"
  | .unrelated => "Unrelated"
  | .unknown => "Unattributed"

def presentedRails : List Rail :=
  [.razorpaySettlement, .otherGateway, .directUpi, .codRemittance, .unrelated, .unknown]

/-- The share of a rail in basis points, rounded half up. -/
def shareBasisPoints (amount : Option ℤ) (totalCredit : ℤ) : Json :=
  match amount with
  | none => .null
  | some amount =>
    if 0 < totalCredit then .int ((amount * 10000 + totalCredit / 2) / totalCredit)
    else if totalCredit = 0 then .int 0
    else .null

def railRow (totals : Json) (totalCredit : ℤ) (rail : Rail) : Json :=
  let amount := (totals.get "by_rail_paise").get rail.value
  .obj
    [("rail", .str rail.value),
      ("label", .str (railLabel rail)),
      ("count", (totals.get "by_rail_count").get rail.value),
      ("amount_paise", amount),
      ("share_basis_points", shareBasisPoints amount.asInt? totalCredit)]

/-- An integer total; the ones read here have been validated. -/
def totalInt (totals : Json) (field : String) : ℤ := (totals.get field).asInt?.getD 0

def presentedUnresolved (totals : Json) : Json :=
  match ((totals.get "by_rail_paise").get? "razorpay_settlement").bind Json.asInt? with
  | none => .null
  | some proven => .int (max 0 (proven - totalInt totals "reconciled_paise"))

def summaryDict (totals : Json) : Json :=
  .obj
    [("n_bank_lines", totals.get "n_bank_lines"),
      ("total_credit_paise", totals.get "total_credit_paise"),
      ("attributed_count", totals.get "attributed"),
      ("abstained_count", totals.get "abstained"),
      ("reconciled_count", totals.get "reconciled_count"),
      ("reconciled_paise", totals.get "reconciled_paise"),
      ("unresolved_count", (totals.get? "unresolved_rzp_count").getD (.int 0)),
      ("unresolved_paise", presentedUnresolved totals),
      ("fee_gst_recoverable_paise", totals.get "fee_gst_recoverable_paise"),
      ("exception_count", (totals.get? "exception_count").getD (.int 0))]

/-- `-v`. -/
def negated : Json → Except PresentationError Json
  | .bool b => .ok (.int (-b.toInt))
  | .int n => .ok (.int (-n))
  | .float q => .ok (.float (-q))
  | .inf negative => .ok (.inf (!negative))
  | .nan => .ok .nan
  | v => .error (.raised (.type ("bad operand type for unary -: '" ++ v.typeName ++ "'")))

/-- The exceptions by reason, the most frequent first. -/
def exceptionsSummary (totals : Json) : Except PresentationError Json := do
  match ((totals.get? "exceptions_by_reason").getD (.obj [])).asObj? with
  | none => .error (.raised (.attribute "exceptions_by_reason has no attribute 'items'"))
  | some fields => do
    let ranked ← fields.mapM fun p => (negated p.2).map fun rank => (rank, p)
    let sorted ← sortedBy (fun r r' => Json.ltItems? [r.1, .str r.2.1] [r'.1, .str r'.2.1]) ranked
    return .arr (sorted.map fun r => .obj
      [("reason_code", .str r.2.1),
        ("label", .str (String.ofList (r.2.1.toList.map fun c => if c = '_' then ' ' else c))),
        ("count", r.2.2)])

def presentedAction (a : CleanAction) : Except PresentationError Json :=
  match a.resolves with
  | none => .error (.raised (.attribute "KeyError: 'resolves'"))
  | some keys => .ok (.obj
      [("action_type", .str a.actionType),
        ("description", .str a.description),
        ("recoverable_paise", .int a.recoverablePaise),
        ("debit_exposure_paise", .int a.debitExposurePaise),
        ("resolves_count", .int keys.length),
        ("gain_per_cost", .float (roundTo 4 a.gainPerCost))])

def recoveryDict (report : Json) : Except PresentationError Json := do
  let plan ← validateRecoveryPlan U (report.get "recovery_plan")
  let actions ← plan.actions.mapM presentedAction
  return .obj
    [("recoverable_if_actioned_paise", .int plan.recoverableIfActionedPaise),
      ("unresolved_credit_paise", .int plan.unresolvedCreditPaise),
      ("unresolved_debit_paise", .int plan.unresolvedDebitPaise),
      ("actions", .arr actions)]

/-- The page of line verdicts. -/
def lineVerdicts (report : Json) (limit offset : ℤ) : Except PresentationError Json := do
  let keys ← reconciledKeys report
  let views ← (((report.get "attributions").asArr?).getD []).mapM attributionView
  let sorted ← sortedBy (fun v w => Json.ltItems? v.sortKey w.sortKey) views
  let page := (sorted.drop offset.toNat).take limit.toNat
  let items ← page.zipIdx.mapM fun p => verdictItem U repr keys (offset.toNat + 1 + p.2) p.1
  return .obj
    [("total", .int sorted.length),
      ("limit", .int limit),
      ("offset", .int offset),
      ("has_more", .bool (offset + limit < sorted.length)),
      ("items", .arr items)]

def runIdentity (report config : Json) (isLegacy : Bool) (schemaVersion : String) : Json :=
  .obj
    [("report_schema_version", .str schemaVersion),
      ("engine_version", .str (pyStr repr ((config.get? "engine_version").getD (.str "unknown")))),
      ("audit_root", .str (pyStr repr ((report.get? "audit_root").getD (.str "")))),
      ("creator", .str "untangle.presentation"),
      ("created_at", .str "2026-09-02"),
      ("parent_schema_version", .null),
      ("legacy", .bool isLegacy)]

def schemaProvenance : Json :=
  .obj
    [("schema_version", .str presentationSchemaVersion),
      ("creator", .str "untangle.presentation"),
      ("created_at", .str "2026-09-02"),
      ("parent_schema_version", .null),
      ("doc", .str "docs/ARCHITECTURE.md#ui-presentation-contract-boundary")]

/-- A pagination parameter is an integer from `least` on. -/
def validatePage (name kind : String) (least : ℤ) (v : Json) : Except PresentationError ℤ :=
  match v.asInt?.filter fun n => least ≤ n with
  | some n => .ok n
  | none => schemaError ("Invalid pagination " ++ name ++ ": " ++ repr v ++ ". Must be a " ++ kind ++ " integer.")

/-- `build_presentation_payload`. -/
def buildPresentationPayload (report : Json) (certificate : Option Json) (limit offset : Json) :
    Except PresentationError Json := do
  let (isLegacy, schemaVersion) ← validateReportStructure U repr report
  let limit ← validatePage repr "limit" "positive" 1 limit
  let offset ← validatePage repr "offset" "non-negative" 0 offset
  let config := if (report.get "config").isObj then report.get "config" else .obj []
  let totals := report.get "totals"
  let exceptions ← exceptionsSummary totals
  let recovery ← recoveryDict U report
  let verdicts ← lineVerdicts U repr report (min limit maxVerdictsLimit) offset
  return .obj
    [("presentation_schema_version", .str presentationSchemaVersion),
      ("presentation_schema_provenance", schemaProvenance),
      ("contract_type", .str "reconciliation_presentation"),
      ("run_identity", runIdentity repr report config isLegacy schemaVersion),
      ("evidence_pack", validateEvidencePack repr config isLegacy),
      ("summary", summaryDict totals),
      ("rails", .arr (presentedRails.map (railRow totals (totalInt totals "total_credit_paise")))),
      ("exceptions_summary", exceptions),
      ("recovery", recovery),
      ("line_verdicts", verdicts),
      ("certificate_status", buildCertificateStatus H U repr report certificate),
      ("methodology", .obj
        [("seed", config.get "seed"),
          ("threshold", config.get "threshold"),
          ("coverage_curve", (totals.get? "coverage_curve").getD (.arr []))]),
      ("evaluation", .null)]

end Presentation

end Untangle
