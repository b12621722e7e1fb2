import Untangle.Engine.Conversions
import Untangle.Engine.Provenance
import Untangle.Lib.Binary64

/-!
# `Engine.Verifier` — the independent verifier

Model of `engine/verifier.py`: the checks on a proof packet and on a report, both documents of any shape. Where the
interpreter would raise on a malformed value (an unhashable signal, something that is not iterable, a number outside
the float range) the model returns the error. `repr` is the interpreter's text of a value, a parameter; the text of
a string is the string. An integer of more than 4300 digits has no text; a text of JSON with one is not read, so here
that is the difference of two amounts. The digits that `float` reads are the ASCII ones.
-/

namespace Untangle

open Lib

/-- What the interpreter raises on a malformed value. -/
inductive PyError
  | type (message : String)
  | overflow (message : String)
  | value (message : String)
  | attribute (message : String)
deriving DecidableEq, Repr

/-- `ALLOWED_TIE_SIGNALS`. -/
def allowedTieSignals : List String := ["utr_exact", "utr_suffix", "setsum", "amount_corr", "split_reconstruction"]

def verifierDriftTolerancePaise : ℤ := 100

/-- Outcome of a single verification check. -/
structure CheckResult where
  name : String
  passed : Bool
  detail : String
deriving DecidableEq, Repr

/-- Full verification outcome for a single proof packet or report root. -/
structure VerificationResult where
  ok : Bool
  checks : List CheckResult
  packetLineKey : String
deriving DecidableEq, Repr

/-! ## Amounts -/

/-- `round(x)`. -/
def roundFloat : Float64 → Except PyError ℤ
  | .finite q => .ok (roundHalfEven q)
  | .inf _ => .error (.overflow "cannot convert float infinity to integer")
  | .nan => .error (.value "cannot convert float NaN to integer")

/-- The text of an amount: a minus sign, currency symbols and commas around a float. -/
def parseInrText (text : String) : Option ℤ :=
  let s := strip text
  let negative := s.toList.head? = some '-'
  let body := if negative then strip (String.ofList s.toList.tail) else s
  let plain := strip (String.ofList ((body.toList.filter (· ≠ '₹')).filter (· ≠ ',')))
  if s = "" then none
  else
    match readFloat plain with
    | some (.finite q) => ((roundFloat (Float64.ofRat (q * 100))).toOption).map fun p => if negative then -p else p
    | _ => none

/-- `_parse_inr_to_paise`. The text of a list or an object starts with a bracket, so it is no amount. -/
def parseInrToPaise : Json → Except PyError (Option ℤ)
  | .null => .ok none
  | .bool b => .ok (some b.toInt)
  | .int i => .ok (some i)
  | .float q => (roundFloat (Float64.ofRat (q * 100))).map some
  | .inf _ => .ok none
  | .nan => .ok none
  | .str s => .ok (parseInrText s)
  | .arr _ => .ok none
  | .obj _ => .ok none
  | .dict _ => .ok none

/-- `isinstance(v, int)`: a truth value is one. -/
def intLike : Json → Option ℤ
  | .bool b => some b.toInt
  | .int i => some i
  | _ => none

section Verifier

variable (U : Unicode) (repr : Json → String)

/-- `str(v)`. -/
def pyStr : Json → String
  | .str s => s
  | v => repr v

/-! ## Ties -/

/-- `sig in ALLOWED_TIE_SIGNALS`: a list or an object cannot be looked up in a set. -/
def allowedSignal : Json → Except PyError Bool
  | .str s => .ok (s ∈ allowedTieSignals)
  | .arr _ => .error (.type "unhashable type: 'list'")
  | .obj _ | .dict _ => .error (.type "unhashable type: 'dict'")
  | _ => .ok false

/-- One tie: whether it is allowed, and its text. -/
def checkTie (tie : Json) : Except PyError (Bool × String) :=
  if tie.isObj then do
    let allowed ← allowedSignal (tie.get "signal")
    return (allowed, pyStr repr (tie.get "signal"))
  else .ok (false, pyStr repr tie)

/-- (a) Every tie is report-backed. -/
def tieCheck (packet : Json) : Except PyError CheckResult :=
  let proof := packet.get "proof"
  if !proof.isObj then .ok ⟨"tie_signals", false, "Missing or invalid 'proof' dictionary"⟩
  else
    match (proof.get "ties").asArr? with
    | none | some [] =>
      .ok ⟨"tie_signals", false, "Resemblance-only: no report-backed tie signal present in proof.ties"⟩
    | some ties => do
      let checked ← ties.mapM (checkTie repr)
      let invalid := checked.filter fun t => !t.1
      if invalid ≠ [] then
        return ⟨"tie_signals", false,
          "Unknown or disallowed tie signals: " ++ String.intercalate ", " (invalid.map Prod.snd)⟩
      return ⟨"tie_signals", true,
        "Tie signal(s) are allowlisted report-backed tie types: " ++ String.intercalate ", " (checked.map Prod.snd)⟩

/-! ## Arithmetic -/

def arithmeticResult (passed : Bool) (detail : String) : CheckResult := ⟨"reconciliation_arithmetic", passed, detail⟩

/-- The text of an integer. -/
def decimalText (i : ℤ) : Except PyError String :=
  if 10 ^ maxStrDigits ≤ i.natAbs then
    .error (.value ("Exceeds the limit (4300 digits) for integer string conversion; " ++
      "use sys.set_int_max_str_digits() to increase the limit"))
  else .ok (toString i)

/-- The residual a settlement claims against the one its amounts give. -/
def residualCheck (credited covered reported : ℤ) : Except PyError CheckResult :=
  let expected := credited - covered
  if verifierDriftTolerancePaise < |expected| then do
    let drift ← decimalText |expected|
    let credited ← decimalText credited
    let covered ← decimalText covered
    return arithmeticResult false ("Arithmetic drift " ++ drift ++ " paise exceeds ±" ++
      toString verifierDriftTolerancePaise ++ " paise tolerance (credited: " ++ credited ++ ", covered: " ++
      covered ++ ")")
  else if reported ≠ expected then do
    let reported ← decimalText reported
    return arithmeticResult false ("Reported residual " ++ reported ++ " paise != calculated residual " ++
      toString expected ++ " paise")
  else .ok (arithmeticResult true ("Covered net matches credited amount within tolerance (residual: " ++
    toString reported ++ " paise)"))

/-- The settlement of a reconciled packet. -/
def settlementCheck (credited : ℤ) (settlement : Json) : Except PyError CheckResult :=
  if settlement.isNull then
    .ok (arithmeticResult false "Packet marked reconciled=True but 'settlement' is missing")
  else if !settlement.isObj then .ok (arithmeticResult false "Invalid 'settlement' object")
  else do
    let net := settlement.get "covered_net_inr"
    let residual := settlement.get "residual_paise"
    let covered ← parseInrToPaise net
    match covered, intLike residual with
    | some covered, some reported => residualCheck credited covered reported
    | _, _ => return arithmeticResult false ("Malformed settlement amounts: covered_net_inr=" ++ repr net ++
        ", residual_paise=" ++ repr residual)

/-- A packet whose amount can be read. -/
def creditedCheck (packet : Json) (credited : ℤ) : Except PyError CheckResult :=
  if ((packet.get? "reconciled").getD (.bool false)).truth then
    settlementCheck repr credited (packet.get "settlement")
  else .ok (arithmeticResult true
    "Credit is unresolved (pending settlement report / split pairing); arithmetic check not applicable")

/-- (b) The covered net equals the credited amount within the tolerance. -/
def arithmeticCheck (packet : Json) : Except PyError CheckResult := do
  let credited ← parseInrToPaise (packet.get "amount_inr")
  match credited with
  | none => return arithmeticResult false ("Invalid or missing amount_inr: " ++ repr (packet.get "amount_inr"))
  | some credited => creditedCheck repr packet credited

/-! ## Margin -/

/-- `f"{x:.4f}"` of a number; an integer is converted to a float first. -/
def formatMargin : Json → Except PyError String
  | .bool b => .ok (formatFixed 4 b.toInt)
  | .int i =>
    match Float64.ofRat i with
    | .finite q => .ok (formatFixed 4 q)
    | _ => .error (.overflow "int too large to convert to float")
  | .float q => .ok (formatFixed 4 q)
  | .inf negative => .ok (if negative then "-inf" else "inf")
  | _ => .ok "nan"

/-- `isinstance(margin, (int, float)) and margin > 0`. -/
def positiveMargin : Json → Bool
  | .bool b => b
  | .int i => 0 < i
  | .float q => 0 < q
  | .inf negative => !negative
  | _ => false

/-- (c) An attached challenger audit has a positive margin. -/
def marginCheck (packet : Json) : Except PyError CheckResult :=
  let rail := (packet.get "verdict").get "rail"
  let challenge := (packet.get "proof").get "challenge"
  if rail.isStr "razorpay_settlement" then
    if challenge.isObj then
      let margin := challenge.get "proof_margin"
      if positiveMargin margin then
        (formatMargin margin).map fun text =>
          ⟨"proof_margin", true, "Challenger audit present; proof margin positive: " ++ text⟩
      else .ok ⟨"proof_margin", false,
        "Challenger audit present but proof margin non-positive: " ++ pyStr repr margin⟩
    else .ok ⟨"proof_margin", true,
      "No challenger audit attached; proof rests on the report-backed tie(s) above (checks a/b)."⟩
  else .ok ⟨"proof_margin", true,
    "Non-Razorpay verdict (" ++ pyStr repr rail ++ "); proof margin check not applicable"⟩

/-! ## Recon rows -/

/-- What iterating over a value yields: the items of a list, the characters of a text, the keys of an object. -/
def iterate : Json → Except PyError (List Json)
  | .arr items => .ok items
  | .str s => .ok (s.toList.map fun c => .str (String.ofList [c]))
  | .obj fields => .ok (fields.map fun p => .str p.1)
  | .dict entries => .ok (entries.map fun p => p.1.toJson)
  | v => .error (.type ("'" ++ v.typeName ++ "' object is not iterable"))

/-- `(str(d.get("type", "")), str(d.get("entity_id", "")))`. -/
def entityKey (entity : Json) : String × String :=
  (pyStr repr ((entity.get? "type").getD (.str "")), pyStr repr ((entity.get? "entity_id").getD (.str "")))

/-- `recon_by_type_id`. -/
def reconByTypeId (rows : List Json) : Dict (String × String) Json :=
  Dict.gather (fun r => if r.isObj then some (entityKey repr r) else none) (fun r _ => r) rows

/-- The texts of the covered entities that the report does not have. -/
def missingEntities (byKey : Dict (String × String) Json) (entities : List Json) : List String :=
  entities.filterMap fun entity =>
    if entity.isObj then
      if (byKey.get? (entityKey repr entity)).isSome then none
      else some ((entityKey repr entity).1 ++ ":" ++ (entityKey repr entity).2)
    else some (pyStr repr entity)

/-- `[a-z0-9]`. -/
def isLowerAlnum (c : Char) : Bool := isDigit c || (97 ≤ c.toNat && c.toNat ≤ 122)

/-- `re.search(word + r"\s+([a-z0-9]+)", text)`: the group of the first match. -/
def searchAfter (word : List Char) : List Char → Option String
  | [] => none
  | c :: cs =>
    let rest := (c :: cs).drop word.length
    let run := (rest.dropWhile isSpace).takeWhile isLowerAlnum
    if word.isPrefixOf (c :: cs) ∧ rest.head?.any isSpace ∧ run ≠ [] then some (String.ofList run)
    else searchAfter word cs

/-- The UTR of a covered entity's row, in lower case; a row without fields counts as no row. -/
def rowUtr (byKey : Dict (String × String) Json) (entity : Json) : Option String :=
  if entity.isObj then
    ((byKey.get? (entityKey repr entity)).filter Json.truth).map fun row =>
      U.lower (pyStr repr ((row.get? "settlement_utr").getD (.str "")))
  else none

/-- A claimed exact UTR disagrees with a row's. -/
def exactDisagrees (claimed utr : String) : Bool := utr ≠ "" && !isIn claimed utr && !isIn utr claimed

/-- A claimed suffix disagrees with a row's UTR. -/
def suffixDisagrees (claimed utr : String) : Bool :=
  utr ≠ "" && !(utr == claimed || endsWith utr claimed || endsWith claimed utr)

/-- The complaints about one tie, in the order of the covered entities. -/
def utrComplaints (byKey : Dict (String × String) Json) (entities : List Json) (tie : Json) : List String :=
  let detail := (U.lower (pyStr repr ((tie.get? "detail").getD (.str "")))).toList
  let complaints := fun (kind : String) (disagrees : String → String → Bool) (claimed : Option String) =>
    claimed.toList.flatMap fun claimed =>
      ((entities.filterMap (rowUtr U repr byKey)).filter (disagrees claimed)).map fun utr =>
        "Claimed " ++ kind ++ " UTR " ++ U.repr claimed ++ " does not match recon settlement_utr " ++ U.repr utr
  if !tie.isObj then []
  else if (tie.get "signal").isStr "utr_exact" then
    complaints "exact" exactDisagrees (searchAfter "utr".toList detail)
  else if (tie.get "signal").isStr "utr_suffix" then
    complaints "suffix" suffixDisagrees (searchAfter "settlement_utr".toList detail)
  else []

/-- (d) The covered entities exist in the recon rows and match the claimed UTRs. -/
def reconRowsCheck (packet reconRows : Json) : Except PyError CheckResult :=
  let settlement := packet.get "settlement"
  let result := fun (passed : Bool) (detail : String) => (⟨"recon_rows_consistency", passed, detail⟩ : CheckResult)
  match reconRows.asArr? with
  | none => .ok (result false "recon_rows must be a list")
  | some rows =>
    if !settlement.isObj then .ok (result true "No covered entities in packet to cross-check against recon_rows")
    else do
      let byKey := reconByTypeId repr rows
      let entities ← iterate ((settlement.get? "covered_entities").getD (.arr []))
      let missing := missingEntities repr byKey entities
      if missing ≠ [] then
        return result false ("Covered entities not found in recon_rows: " ++ String.intercalate ", " (missing.take 5))
      -- the last complaint is the one reported
      match ((((packet.get "proof").get "ties").asArr?.getD []).flatMap (utrComplaints U repr byKey entities)).getLast? with
      | some detail => return result false detail
      | none => return result true ("All " ++ toString entities.length ++
          " covered entities exist in recon_rows and match claimed UTR ties")

/-! ## Packets and reports -/

/-- `verify_proof_packet`. -/
def verifyProofPacket (packet : Json) (reconRows : Option Json) : Except PyError VerificationResult :=
  if !packet.isObj then
    .ok ⟨false, [⟨"packet_structure", false, "Packet is not a dictionary"⟩], "malformed"⟩
  else do
    let ties ← tieCheck repr packet
    let arithmetic ← arithmeticCheck repr packet
    let margin ← marginCheck repr packet
    let recon ← reconRows.toList.mapM (reconRowsCheck U repr packet)
    let checks := [ties, arithmetic, margin] ++ recon
    return ⟨checks.all CheckResult.passed, checks, pyStr repr ((packet.get? "line_key").getD (.str "unknown"))⟩

/-- `len(root) == 64 and all(c in "0123456789abcdefABCDEF" for c in root)`. -/
def isHexDigest (text : String) : Bool :=
  decide (text.length = 64) && text.toList.all fun c => c ∈ "0123456789abcdefABCDEF".toList

/-- 1. The audit root is well formed. -/
def auditRootResult (report : Json) : VerificationResult :=
  let root := report.get "audit_root"
  match root.asStr?.filter fun text => isHexDigest text with
  | some text => ⟨true, [⟨"audit_root_format", true,
      "audit_root is a well-formed 64-char SHA-256 hex string (" ++ text ++ ") — FORMAT only; " ++
        "not an independent recomputation of the audit chain (needs the raw ledger)."⟩], "report:audit_root"⟩
  | none => ⟨false, [⟨"audit_root_format", false,
      "Invalid audit_root: expected 64-char hex string, got " ++ repr root⟩], "report:audit_root"⟩

/-- 2. Every packet is verified. -/
def packetResults (report : Json) : Except PyError (List VerificationResult) :=
  match (report.get "proof_packets").asArr? with
  | some packets => packets.mapM fun packet => verifyProofPacket U repr packet none
  | none => .ok [⟨false, [⟨"proof_packets_structure", false, "'proof_packets' must be a list, got " ++
      (report.get "proof_packets").typeName⟩], "report:proof_packets"⟩]

/-- 3. A schema 1.1.0 report names a registered evidence pack. -/
def provenanceResults (report : Json) : List VerificationResult :=
  let config := report.get "config"
  let pack := config.get "evidence_pack"
  if (config.get "report_schema_version").isStr "1.1.0" then
    match resolvePackProvenance pack with
    | .ok found => [⟨true, [⟨"evidence_pack_provenance", true, "Evidence pack provenance verified: " ++
        found.provenance.packId ++ "@" ++ found.provenance.version ++ " (schema " ++
        found.provenance.schemaVersion ++ ")"⟩], "report:config:evidence_pack"⟩]
    | .error _ => [⟨false, [⟨"evidence_pack_provenance", false,
        "Schema 1.1.0 report must carry valid config.evidence_pack dict, got: " ++ repr pack⟩],
        "report:config:evidence_pack"⟩]
  else []

/-- `verify_report`. -/
def verifyReport (report : Json) : Except PyError (List VerificationResult) :=
  if !report.isObj then
    .ok [⟨false, [⟨"report_structure", false, "Report is not a dictionary"⟩], "report:root"⟩]
  else do
    let packets ← packetResults U repr report
    return auditRootResult repr report :: packets ++ provenanceResults repr report

end Verifier

end Untangle
