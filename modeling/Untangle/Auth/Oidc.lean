import Untangle.Auth.Sessions
import Untangle.Engine.Text
import Untangle.Lib.Json
import Untangle.Lib.UnitOfWork

/-!
# `Auth.Oidc` — the sign-in with an identity provider

Model of `auth/oidc.py` and of the functions it calls: `fn_oidc_create_transaction`, `fn_oidc_consume_transaction`
and `fn_auth_resolve_federated_identity` on PostgreSQL, and its own queries on SQLite. What the provider answers is
given with each call, and what the libraries for tokens, ciphers and databases do is a parameter. The discovery
document and the key set that a manager has cached are answers like those that it fetches. Addresses and agents of the
browser, and public identifiers, are left out.
-/

namespace Untangle

open Lib

/-! ## Tables -/

structure OidcAuthTransaction where
  nonceHash : String
  codeVerifierEncrypted : String
  returnTo : String
  expiresAt : Instant
  consumedAt : Option Instant := none
deriving DecidableEq

structure FederatedIdentity where
  principalId : Nat
  emailAtAuth : String
deriving DecidableEq

structure SecurityEvent where
  eventType : String
  subjectType : String
  subjectIdentifier : String
  actorPrincipalId : Option Nat := none
  details : List (String × Json)

/-- The identity tables, with those of the sign-in. -/
structure OidcDatabase extends AuthDatabase where
  /-- By the hash of the state (`oidc_auth_transactions_state_hash_key`). -/
  transactions : Dict String OidcAuthTransaction := Dict.empty
  /-- Whether an issuer is active (`trusted_auth_issuers_issuer_url_key`). -/
  trustedIssuers : Dict String Bool := Dict.empty
  /-- By issuer and subject (`uq_federated_issuer_subject`). -/
  identities : Dict (String × String) FederatedIdentity := Dict.empty
  securityEvents : List SecurityEvent := []

/-! ## What is outside -/

inductive OidcError
  | state (message : String)
  | token (message : String)
  | unverifiedEmail (message : String)
  | identityCollision (message : String)
  | oidc (message : String)
  /-- Raised by a library, by a database, or by Python itself. -/
  | outside (message : String)
deriving DecidableEq, Repr

/-- `OidcStateError`. -/
def OidcError.isState : OidcError → Bool
  | .state _ => true
  | _ => false

structure OidcLibraries where
  letters : Letters
  hashToken : String → String
  encryptCodeVerifier : String → String
  decryptCodeVerifier : String → Except String String
  /-- `JsonWebKey.import_key_set`. -/
  importKeySet : Json → Except String Json
  /-- `jwt.decode` and `claims.validate`. -/
  decodeToken : Json → Json → Instant → Option Json
  /-- Python's `str`. -/
  str : Json → String
  /-- How a driver hands over a value for a text, if it does. -/
  driverText : Backend → Json → Option String
  /-- How a column of 255 characters takes a text, if it does. -/
  columnText : Backend → String → Option String
  /-- The size of a column of details. -/
  detailsSize : Backend → List (String × Json) → Nat
  /-- The text of what a database raises, with the parameters of the statement. -/
  exceptionText : OidcError → List (String × Json) → String

structure OidcManager where
  issuerUrl : String
  clientId : String

structure TokenResponse where
  statusCode : Nat
  json : Except String Json

/-- What the provider answers while a callback runs. -/
structure ProviderAnswers where
  /-- The discovery document, from the cache or fetched. -/
  metadata : Except String Json
  /-- The answer to a request for tokens at an endpoint, with a code and its verifier. -/
  post : Json → String → String → Except String TokenResponse
  cachedJwks : Option Json := none
  fetchJwks : Json → Except String Json

/-! ## Values of documents -/

/-- Python's truth value of a document. -/
def jsonTruth : Json → Bool
  | .null => false
  | .bool b => b
  | .int i => i ≠ 0
  | .float q => q ≠ 0
  | .inf _ => true
  | .nan => true
  | .str s => s ≠ ""
  | .arr items => !items.isEmpty
  | .obj fields => !fields.isEmpty
  | .dict entries => !entries.isEmpty

/-- `value is None`. -/
def isNull : Json → Bool
  | .null => true
  | _ => false

/-- `value == text`. -/
def isText (text : String) : Json → Bool
  | .str s => s = text
  | _ => false

/-- `a or b`. -/
def jsonOr (a b : Json) : Json := if jsonTruth a then a else b

/-- `document.get(key)`. -/
def documentGet (key : String) (document : Json) : Except OidcError Json :=
  match document with
  | .obj _ => .ok (document.get key)
  | _ => .error (.outside "object has no attribute 'get'")

section Manager

variable (lib : OidcLibraries) (backend : Backend) (mgr : OidcManager)

/-- `record_security_event`. -/
def recordSecurityEvent (event : SecurityEvent) : Work OidcDatabase OidcError Unit :=
  .execute fun db => do
    refuseIf (4096 < lib.detailsSize backend event.details) (.outside "chk_sec_events_json_size")
    return ((), { db with securityEvents := db.securityEvents ++ [event] })

/-- A security event that is committed before an exception is raised. -/
def failCommitted {α : Type} (event : SecurityEvent) (e : OidcError) : Work OidcDatabase OidcError α := do
  recordSecurityEvent lib backend event
  .commit
  .raise e

/-! ## `create_authorization_flow` -/

/-- The new transaction, with the state, the nonce and the verifier that are drawn. -/
def createAuthorizationFlow (answers : ProviderAnswers) (rawState rawNonce codeVerifier returnTo : String)
    (now : Instant) : Work OidcDatabase OidcError String := do
  let metadata ← .lift (answers.metadata.mapError .outside)
  let endpoint ← .lift (documentGet "authorization_endpoint" metadata)
  .lift (refuseIf (jsonTruth endpoint = false) (.oidc "Discovery document missing authorization_endpoint"))
  .execute fun db => do
    refuseIf (db.transactions.get? (lib.hashToken rawState)).isSome (.outside "oidc_auth_transactions_state_hash_key")
    return ((), { db with transactions := db.transactions.insert (lib.hashToken rawState) {
      nonceHash := lib.hashToken rawNonce
      codeVerifierEncrypted := lib.encryptCodeVerifier codeVerifier
      returnTo := returnTo
      expiresAt := now + seconds 600 } })
  recordSecurityEvent lib backend {
    eventType := "auth.oidc.initiated"
    subjectType := "oidc_transaction"
    subjectIdentifier := ""
    details := [("issuer", .str mgr.issuerUrl), ("return_to", .str returnTo)] }
  .commit
  return rawState

/-! ## `process_callback` -/

/-- The transaction of a state, if it is neither consumed nor expired. -/
def OidcDatabase.openTransaction (db : OidcDatabase) (stateHash : String) (now : Instant) :
    Option OidcAuthTransaction :=
  (db.transactions.get? stateHash).filter fun tx => tx.consumedAt.isNone && now < tx.expiresAt

/-- `fn_oidc_consume_transaction`, and the update of the fallback. -/
def consumeTransaction (stateHash : String) (now : Instant) :
    Work OidcDatabase OidcError (Option OidcAuthTransaction) :=
  .execute fun db =>
    match db.openTransaction stateHash now with
    | none => .ok (none, db)
    | some tx => .ok (some tx, { db with
        transactions := db.transactions.insert stateHash { tx with consumedAt := some now } })

/-- The code exchange at the token endpoint. -/
def exchangeCode (answers : ProviderAnswers) (code : String) (tx : OidcAuthTransaction) :
    Except OidcError TokenResponse := do
  let codeVerifier ← (lib.decryptCodeVerifier tx.codeVerifierEncrypted).mapError .outside
  let metadata ← answers.metadata.mapError .outside
  let tokenEndpoint ← documentGet "token_endpoint" metadata
  refuseIf (jsonTruth tokenEndpoint = false) (.oidc "Discovery document missing token_endpoint")
  (answers.post tokenEndpoint code codeVerifier).mapError .outside

def idTokenOf (response : TokenResponse) : Except OidcError Json := do
  let tokens ← response.json.mapError .outside
  let idToken ← documentGet "id_token" tokens
  refuseIf (jsonTruth idToken = false) (.token "Missing id_token in token response")
  return idToken

/-- `get_jwks`. -/
def getJwks (answers : ProviderAnswers) : Except OidcError Json :=
  match answers.cachedJwks with
  | some jwks => .ok jwks
  | none => do
    let metadata ← answers.metadata.mapError .outside
    let jwksUri ← documentGet "jwks_uri" metadata
    refuseIf (jsonTruth jwksUri = false) (.oidc "Discovery document missing jwks_uri")
    (answers.fetchJwks jwksUri).mapError .outside

def keySetOf (answers : ProviderAnswers) : Except OidcError Json := do
  let jwks ← getJwks answers
  (lib.importKeySet jwks).mapError .outside

/-- The nonce of a token against the one of the transaction. -/
def verifyNonce (nonceHash : String) (tokenNonce : Json) : Except OidcError Unit :=
  match tokenNonce with
  | .str nonce => refuseIf (nonce = "" ∨ lib.hashToken nonce ≠ nonceHash) (.token "Nonce mismatch in ID token")
  | other =>
    if jsonTruth other then .error (.outside "object has no attribute 'encode'")
    else .error (.token "Nonce mismatch in ID token")

def audienceValues : Json → List Json
  | .arr values => values
  | aud => [aud]

/-- The claims that must be right before any other is read. -/
def verifyClaims (nonceHash : String) (claims : Json) : Except OidcError Unit := do
  refuseIf (isText mgr.issuerUrl (claims.get "iss") = false)
    (.token ("Issuer mismatch: expected " ++ mgr.issuerUrl ++ ", got " ++ lib.str (claims.get "iss")))
  let aud := claims.get "aud"
  refuseIf ((audienceValues aud).any (isText mgr.clientId) = false)
    (.token ("Audience mismatch: expected " ++ mgr.clientId ++ ", got " ++ lib.str aud))
  let azp := claims.get "azp"
  refuseIf (isNull azp = false ∧ isText mgr.clientId azp = false) (.token "azp claim must equal the client_id")
  -- The value of an audience that is not a list is one value, so a list is what has more of them.
  refuseIf (1 < (audienceValues aud).length ∧ isText mgr.clientId azp = false)
    (.token "azp claim must equal the client_id when the ID token has multiple audiences")
  verifyNonce lib nonceHash (claims.get "nonce")

/-- The e-mail, the subject and the display name of the claims. -/
structure ClaimedIdentity where
  email : Json
  subject : String
  displayName : Json

def claimedIdentity (claims : Json) : Except OidcError ClaimedIdentity := do
  let email := claims.get "email"
  refuseIf (jsonTruth email = false) (.token "Missing email claim in ID token")
  match claims.get "sub" with
  | .str subject =>
    refuseIf (subject = "") (.token "Missing subject (sub) claim in ID token")
    return {
      email := email
      subject := subject
      displayName := jsonOr (jsonOr (claims.get "name") (claims.get "preferred_username")) email }
  | _ => .error (.token "Missing subject (sub) claim in ID token")

/-! ## `fn_auth_resolve_federated_identity`, and the queries of the fallback -/

/-- The principal of an issuer and a subject. -/
def OidcDatabase.federated (db : OidcDatabase) (issuer subject : String) :
    Option (FederatedIdentity × Principal) :=
  (db.identities.get? (issuer, subject)).bind fun fed =>
    db.principals[fed.principalId]?.map fun p => (fed, p)

/-- The new name of a principal, and the e-mail address at its last sign-in. -/
def OidcDatabase.refresh (db : OidcDatabase) (issuer subject normEmail displayName : String)
    (fed : FederatedIdentity) (p : Principal) : OidcDatabase :=
  { db with
    identities := db.identities.insert (issuer, subject) { fed with emailAtAuth := normEmail }
    principals := db.principals.set fed.principalId { p with displayName := displayName } }

/-- A new principal, and its identity at an issuer. -/
def OidcDatabase.register (db : OidcDatabase) (issuer subject normEmail displayName : String) : OidcDatabase :=
  { db with
    principals := db.principals ++ [{ email := normEmail, displayName := displayName }]
    identities := db.identities.insert (issuer, subject) {
      principalId := db.principals.length
      emailAtAuth := normEmail } }

def takeText (lib : OidcLibraries) (backend : Backend) (value : Json) : Except OidcError String :=
  match lib.driverText backend value with
  | some text => .ok text
  | none => .error (.outside "can't adapt type")

def takeColumn (lib : OidcLibraries) (backend : Backend) (text : String) : Except OidcError String :=
  match lib.columnText backend text with
  | some text => .ok text
  | none => .error (.outside "value too long for type character varying(255)")

/-- A value of which a method for texts is called. -/
def textOf : Json → Except OidcError String
  | .str text => .ok text
  | _ => .error (.outside "object has no attribute 'lower'")

def resolveFederatedIdentity (who : ClaimedIdentity) (db : OidcDatabase) : Except OidcError (Nat × OidcDatabase) := do
  let email ← takeText lib .postgres who.email
  let displayName ← takeText lib .postgres who.displayName
  let subject ← takeText lib .postgres (.str who.subject)
  let normEmail ← takeColumn lib .postgres (normEmail lib.letters .postgres email)
  refuseIf (db.trustedIssuers.get? mgr.issuerUrl ≠ some true)
    (.outside ("Untrusted or inactive identity provider: " ++ mgr.issuerUrl))
  match db.federated mgr.issuerUrl subject with
  | some (fed, p) => do
    refuseIf (p.isActive = false) (.outside "Principal account is deactivated")
    let displayName ← takeColumn lib .postgres displayName
    return (fed.principalId, db.refresh mgr.issuerUrl subject normEmail displayName fed p)
  | none => do
    refuseIf (db.principals.any fun p => lib.letters.postgres p.email = normEmail)
      (.outside ("Principal with email " ++ email ++ " already exists (identity collision)"))
    let displayName ← takeColumn lib .postgres displayName
    let subject ← takeColumn lib .postgres subject
    refuseIf (db.identities.get? (mgr.issuerUrl, subject)).isSome (.outside "uq_federated_issuer_subject")
    return (db.principals.length, db.register mgr.issuerUrl subject normEmail displayName)

/-- The event of an identity collision. -/
def collisionEvent (subjectIdentifier subject : String) : SecurityEvent where
  eventType := "auth.identity.collision"
  subjectType := "principal"
  subjectIdentifier := subjectIdentifier
  details := [("issuer", .str mgr.issuerUrl), ("subject", .str subject)]

def collisionError (email : String) : OidcError :=
  .identityCollision ("Email " ++ email ++ " already belongs to an existing principal")

/-- The call of the function, and what is made of its exceptions. -/
def resolvePostgres (who : ClaimedIdentity) : Work OidcDatabase OidcError Nat :=
  .handle (.execute (resolveFederatedIdentity lib mgr who)) fun e => do
    .rollback
    let text := lib.letters.python (lib.exceptionText e [("issuer", .str mgr.issuerUrl),
      ("subject", .str who.subject), ("email", who.email), ("display_name", who.displayName)])
    if isIn "identity collision" text ∨ isIn "p0004" text then
      match who.email with
      | .str email =>
        failCommitted lib backend (collisionEvent mgr ((email.take 64).toString) who.subject) (collisionError email)
      -- An e-mail that is not a text cannot be the identifier of an event.
      | _ => .raise (.outside "email")
    else .raise e

/-- The same on SQLite. -/
def resolveSqlite (who : ClaimedIdentity) : Work OidcDatabase OidcError Nat := do
  let email ← .lift (textOf who.email)
  let norm := normEmail lib.letters .sqlite email
  let db ← .read
  .lift (refuseIf (db.trustedIssuers.get? mgr.issuerUrl ≠ some true)
    (.oidc ("Untrusted or inactive identity provider: " ++ mgr.issuerUrl)))
  match db.identities.get? (mgr.issuerUrl, who.subject) with
  | some fed =>
    match db.principals[fed.principalId]?.filter Principal.isActive with
    | some p => .execute fun db => do
      let displayName ← takeText lib .sqlite who.displayName
      return (fed.principalId, db.refresh mgr.issuerUrl who.subject norm displayName fed p)
    | none => .raise (.oidc "Principal account is deactivated")
  | none =>
    if db.principals.any fun p => p.email = norm then
      failCommitted lib backend (collisionEvent mgr ((norm.take 64).toString) who.subject) (collisionError email)
    else .execute fun db => do
      let displayName ← takeText lib .sqlite who.displayName
      return (db.principals.length, db.register mgr.issuerUrl who.subject norm displayName)

def resolveIdentity (who : ClaimedIdentity) : Work OidcDatabase OidcError Nat :=
  match backend with
  | .postgres => resolvePostgres lib backend mgr who
  | .sqlite => resolveSqlite lib backend mgr who

/-! ## `process_callback`, put together -/

def callbackFailed (subjectType subjectIdentifier : String) (details : List (String × Json)) : SecurityEvent where
  eventType := "auth.oidc.callback_failed"
  subjectType := subjectType
  subjectIdentifier := subjectIdentifier
  details := details

/-- The event of a state that is not consumed. -/
def invalidStateEvent (stateHash : String) : SecurityEvent :=
  callbackFailed "oidc_transaction" (stateHash.take 16).toString [("error", .str "invalid_or_replayed_state")]

def tokenEndpointEvent (stateHash : String) (statusCode : Nat) : SecurityEvent :=
  callbackFailed "oidc_transaction" (stateHash.take 16).toString
    [("error", .str "token_endpoint_error"), ("status", .int statusCode)]

def decodeEvent : SecurityEvent := callbackFailed "id_token" "jwt_validation" [("error", .str "jwt_decode_error")]

def unverifiedEvent (claims : Json) : SecurityEvent :=
  callbackFailed "id_token" ((lib.str (jsonOr (claims.get "sub") (.str ""))).take 64).toString
    [("error", .str "unverified_email")]

def successEvent (principalId : Nat) (email : Json) : SecurityEvent where
  eventType := "auth.oidc.callback_success"
  subjectType := "principal"
  subjectIdentifier := toString principalId
  actorPrincipalId := some principalId
  details := [("issuer", .str mgr.issuerUrl), ("email", email)]

/-- The steps after the ID token is decoded. -/
def signIn (tx : OidcAuthTransaction) (claims : Json) : Work OidcDatabase OidcError (Nat × String) := do
  .lift (verifyClaims lib mgr tx.nonceHash claims)
  .whenever (jsonTruth (claims.get "email_verified") = false)
    (failCommitted lib backend (unverifiedEvent lib claims) (.unverifiedEmail "IdP account email must be verified"))
  let who ← .lift (claimedIdentity claims)
  let principalId ← resolveIdentity lib backend mgr who
  recordSecurityEvent lib backend (successEvent mgr principalId who.email)
  .commit
  return (principalId, tx.returnTo)

/-- The steps after a transaction is consumed. -/
def completeCallback (answers : ProviderAnswers) (code stateHash : String) (now : Instant)
    (tx : OidcAuthTransaction) : Work OidcDatabase OidcError (Nat × String) := do
  let response ← .lift (exchangeCode lib answers code tx)
  .whenever (response.statusCode ≠ 200) (failCommitted lib backend (tokenEndpointEvent stateHash response.statusCode)
    (.token ("IdP token endpoint returned " ++ toString response.statusCode)))
  let idToken ← .lift (idTokenOf response)
  let keySet ← .lift (keySetOf lib answers)
  match lib.decodeToken idToken keySet now with
  | none => failCommitted lib backend decodeEvent (.token "Invalid ID Token signature or claims")
  | some claims => signIn lib backend mgr tx claims

def processCallback (answers : ProviderAnswers) (code state : String) (now : Instant) :
    Work OidcDatabase OidcError (Nat × String) := do
  let consumed ← consumeTransaction (lib.hashToken state) now
  match consumed with
  | none =>
    failCommitted lib backend (invalidStateEvent (lib.hashToken state))
      (.state "Invalid, expired, or previously consumed OIDC state")
  | some tx => completeCallback lib backend mgr answers code (lib.hashToken state) now tx

end Manager

/-! ## Calls, one after the other -/

inductive OidcOperation
  | initiate (rawState rawNonce codeVerifier returnTo : String)
  | callback (code state : String)

/-- A call, when it is made, and what the provider answers meanwhile. -/
structure OidcCall where
  now : Instant
  answers : ProviderAnswers
  operation : OidcOperation

section Steps

variable (lib : OidcLibraries) (backend : Backend) (mgr : OidcManager)

/-- What a call answers, and the database that it leaves. -/
def OidcDatabase.callback (db : OidcDatabase) (answers : ProviderAnswers) (code state : String) (now : Instant) :
    Except OidcError (Nat × String) × OidcDatabase :=
  (processCallback lib backend mgr answers code state now).close db

def OidcDatabase.step (db : OidcDatabase) (call : OidcCall) : OidcDatabase :=
  match call.operation with
  | .initiate rawState rawNonce codeVerifier returnTo =>
    ((createAuthorizationFlow lib backend mgr call.answers rawState rawNonce codeVerifier returnTo call.now).close db).2
  | .callback code state => (db.callback lib backend mgr call.answers code state call.now).2

end Steps

end Untangle
