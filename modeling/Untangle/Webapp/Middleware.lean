import Untangle.Auth.System
import Untangle.Engine.Models
import Untangle.Engine.Text
import Untangle.Persistence.Tenancy

/-!
# `Webapp.Middleware` — who is let through to a route

Model of `webapp/middleware.py`, with the CSRF tokens of `auth/crypto.py`: a request is authenticated by its cookie,
then its origin and its CSRF token are checked, then the routes of a tenant are guarded. The digest and the MAC are
parameters, and so is what `urllib.parse` asks of a host in brackets. Requests come between the calls of the identity
service; the lookup and the touch of one see the clock once.
-/

namespace Untangle

open Lib

/-! ## Origins -/

def schemeChar (c : Char) : Bool := c.isAlphanum || c = '+' || c = '-' || c = '.'

/-- The scheme, and what comes after it. -/
def splitScheme (url : List Char) : List Char × List Char :=
  let before := url.takeWhile (· ≠ ':')
  match url.drop before.length with
  | ':' :: after =>
    if before.head?.any Char.isAlpha ∧ before.all schemeChar then (before.map Char.toLower, after) else ([], url)
  | _ => ([], url)

/-- `_checknetloc`: the NFKC form hides no delimiter. -/
def normalNetloc (U : Unicode) (netloc : List Char) : Bool :=
  let n := String.ofList (netloc.filter fun c => c ∉ ['@', ':', '#', '?'])
  netloc.all (fun c => c.toNat < 128) || U.nfkc n = n || (U.nfkc n).toList.all fun c => c ∉ ['/', '?', '#', '@', ':']

/-- `urlparse`, of which the scheme and the network location are used; it may raise. -/
def urlparse (U : Unicode) (bracketedHost : List Char → Bool) (text : String) : Option (List Char × List Char) :=
  let url := (text.toList.dropWhile fun c => c.toNat ≤ 32).filter fun c => c ≠ '\t' ∧ c ≠ '\r' ∧ c ≠ '\n'
  let (scheme, rest) := splitScheme url
  match rest with
  | '/' :: '/' :: rest =>
    let netloc := rest.takeWhile fun c => c ≠ '/' ∧ c ≠ '?' ∧ c ≠ '#'
    if ('[' ∈ netloc) ≠ (']' ∈ netloc) then none
    else if '[' ∈ netloc ∧ bracketedHost netloc = false then none
    else if normalNetloc U netloc = false then none
    else some (scheme, netloc)
  | _ => some (scheme, [])

/-- `rstrip("/")`. -/
def rstripSlash (text : String) : String := String.ofList ((text.toList.reverse.dropWhile (· = '/')).reverse)

/-- What the environment says. -/
structure WebSettings where
  /-- `UNTANGLE_ALLOWED_ORIGINS`. -/
  origins : String := ""
  /-- `UNTANGLE_SECRET_KEY`. -/
  secretKey : String := ""
  localOrTestMode : Bool := false
  /-- Whether `DATABASE_URL` is configured. -/
  hasDatabase : Bool := true

namespace WebSettings

/-- `get_allowed_origins`. -/
def allowedOrigins (settings : WebSettings) : List String :=
  let raw := strip settings.origins
  if raw = "" then
    ["http://localhost:8080", "http://127.0.0.1:8080", "http://localhost:8000", "http://127.0.0.1:8000",
      "http://testserver"]
  else
    ((raw.toList.splitOn ',').map String.ofList).filterMap fun origin =>
      if strip origin = "" then none else some (rstripSlash (strip origin))

def defaultDevSecret : String := "dev-insecure-secret-key-change-in-production-12345678"

/-- `get_app_secret_key`, which may raise. -/
def appSecretKey (settings : WebSettings) : Option String :=
  let configured := strip settings.secretKey
  if configured ≠ "" ∧ (configured ≠ defaultDevSecret ∨ settings.localOrTestMode) then some configured
  else if settings.localOrTestMode then some defaultDevSecret
  else none

end WebSettings

/-! ## Requests -/

/-- A request, as far as it is looked at here, with what fails of the database while it is. -/
structure WebRequest where
  method : String
  path : String
  /-- `request.cookies`. -/
  cookies : List (String × String) := []
  origin : Option String := none
  referer : Option String := none
  /-- `x-csrf-token`. -/
  csrfToken : Option String := none
  requestId : String := ""
  lookupFails : Bool := false
  touchFails : Bool := false
deriving DecidableEq, Repr

/-- A response that is not of a route. -/
structure WebRefusal where
  status : Nat
  error : String
  detail : String
deriving DecidableEq, Repr

/-- `request.state`. -/
structure RequestState where
  /-- `raw_token` and `session`, which are set together. -/
  session : Option (String × SessionInfo) := none
  tenantContext : Option TenantContext := none

/-- Why a request does not reach a route. -/
inductive WebStop
  | refused (refusal : WebRefusal)
  /-- An exception that nothing here catches. -/
  | raised
deriving DecidableEq, Repr

/-- The identifiers of the database are from one on, those of the identity tables here from zero on. -/
def TenantContext.ofIds (organisationId principalId : Nat) (role : Role) (requestId : String) : TenantContext where
  organisationId := organisationId + 1
  principalId := principalId + 1
  role := role
  requestId := requestId
  organisation_pos := by omega
  principal_pos := by omega

namespace WebRequest

def cookieNameProd : String := "__Host-untangle_session"
def cookieNameDev : String := "untangle_session"

/-- The cookie of the session, if it is not empty. -/
def sessionCookie (r : WebRequest) : Option String :=
  truthy (r.cookies.lookup cookieNameProd) <|> truthy (r.cookies.lookup cookieNameDev)

def safeMethods : List String := ["GET", "HEAD", "OPTIONS"]

/-- `exempt_paths`. -/
def exemptPaths : List String := ["/api/auth/callback", "/api/docs", "/openapi.json"]

def controlPlanePrefixes : List String := ["/api/auth/", "/api/orgs/", "/api/invitations/"]

def isControlPlane (r : WebRequest) : Bool :=
  controlPlanePrefixes.any fun root => root.toList.isPrefixOf r.path.toList

/-- `TENANT_PREFIXES`. -/
def isTenantPath (r : WebRequest) : Bool := "/api/tenant/".toList.isPrefixOf r.path.toList

variable (U : Unicode) (bracketedHost : List Char → Bool) (hashToken : String → String)
  (hmac : String → String → String) (settings : WebSettings) (backend : Backend)

/-! ## Authentication -/

/-- The context of a session with an active organisation. -/
def contextOf (r : WebRequest) (info : SessionInfo) : Option TenantContext :=
  match info.activeOrganisationId, info.activeRoleCode with
  | some organisationId, some role => some (.ofIds organisationId info.principalId role r.requestId)
  | _, _ => none

/-- `AuthenticationMiddleware`: what is set of the request, and the database. -/
def authenticate (r : WebRequest) (now : Instant) (db : AuthDatabase) : RequestState × AuthDatabase :=
  match r.sessionCookie with
  | none => ({}, db)
  | some rawToken =>
    if settings.hasDatabase = false ∨ r.lookupFails then ({}, db)
    else
      match db.lookupSession backend (hashToken rawToken) now with
      | none => ({}, db)
      | some info =>
        if info.isRevoked ∨ info.isStale then ({}, db)
        else if r.touchFails then ({ session := some (rawToken, info) }, db)
        else
          match db.touchSessionThrottled backend (hashToken rawToken) now with
          | .error _ => ({ session := some (rawToken, info) }, db)
          | .ok (_, db') => ({ session := some (rawToken, info), tenantContext := r.contextOf info }, db')

/-! ## CSRF -/

/-- `generate_csrf_token`. -/
def generateCsrfToken (secretKey sessionTokenHash : String) : String := hmac secretKey (sessionTokenHash ++ ":csrf")

/-- `verify_csrf_token`: `compare_digest` raises on a text that is not ASCII. -/
def verifyCsrfToken (secretKey sessionTokenHash token : String) : Option Bool :=
  if token.toList.any fun c => 128 ≤ c.toNat then none
  else some (generateCsrfToken hmac secretKey sessionTokenHash = token)

/-- The second half of `CsrfMiddleware`: the token that is bound to the session. -/
def checkCsrfToken (r : WebRequest) (session : Option (String × SessionInfo)) : Option WebStop :=
  match truthy r.csrfToken with
  | none =>
    let detail := "Missing X-CSRF-Token header on authenticated mutating request."
    some (.refused ⟨403, "CSRF_TOKEN_MISSING", detail⟩)
  | some token =>
    let rawToken := (truthy (session.map Prod.fst) <|> r.sessionCookie).getD ""
    match settings.appSecretKey with
    | none => some .raised
    | some secretKey =>
      match verifyCsrfToken hmac secretKey (hashToken rawToken) token with
      | none => some .raised
      | some true => none
      | some false => some (.refused ⟨403, "CSRF_TOKEN_INVALID", "Invalid or mismatched CSRF token."⟩)

/-- `CsrfMiddleware`: a response, or the request goes on. -/
def csrf (r : WebRequest) (session : Option (String × SessionInfo)) : Option WebStop :=
  if r.method ∈ safeMethods then none
  else if r.path ∈ exemptPaths then none
  else if r.isControlPlane ∨ r.sessionCookie.isSome then
    match truthy r.origin <|> truthy r.referer with
    | none =>
      some (.refused ⟨403, "CSRF_ORIGIN_MISSING", "Missing Origin and Referer headers on mutating request."⟩)
    | some header =>
      match urlparse U bracketedHost header with
      | none => some .raised
      | some (scheme, netloc) =>
        let requestOrigin := String.ofList (scheme ++ "://".toList ++ netloc)
        if rstripSlash requestOrigin ∉ settings.allowedOrigins then
          let detail := "Origin " ++ U.repr requestOrigin ++ " is not in the allowed origins list."
          some (.refused ⟨403, "CSRF_ORIGIN_DENIED", detail⟩)
        else if session.isSome ∨ r.sessionCookie.isSome then r.checkCsrfToken hashToken hmac settings session
        else none
  else none

/-! ## The routes of a tenant -/

/-- `TenantRouteGuard`. -/
def guardTenant (r : WebRequest) (state : RequestState) : Option WebStop :=
  if r.isTenantPath then
    match state.session with
    | none => some (.refused ⟨401, "UNAUTHENTICATED", "Authentication required to access tenant resource."⟩)
    | some (_, info) =>
      if state.tenantContext.isNone ∨ info.activeOrganisationId.isNone then
        let detail := "An active organisation must be selected to access this resource."
        some (.refused ⟨403, "NO_ACTIVE_ORGANISATION", detail⟩)
      else none
  else none

/-- A request goes from the outer middleware to the inner one: what the route sees of it. -/
def serve (r : WebRequest) (now : Instant) (db : AuthDatabase) : Except WebStop RequestState :=
  let state := (r.authenticate hashToken settings backend now db).1
  match r.csrf U bracketedHost hashToken hmac settings state.session with
  | some stop => .error stop
  | none =>
    match r.guardTenant state with
    | some stop => .error stop
    | none => .ok state

end WebRequest

/-! ## Steps -/

inductive WebAction
  | call (operation : AuthOperation)
  | request (r : WebRequest)

/-- A call of the identity service or a request, some time after the last one. -/
def AuthState.webStep (L : Letters) (tokens : Nat → String) (hashToken : String → String) (settings : WebSettings)
    (backend : Backend) (σ : AuthState) (action : Nat × WebAction) : AuthState :=
  match action.2 with
  | .call operation => σ.step L tokens backend (action.1, operation)
  | .request r =>
    { db := (r.authenticate hashToken settings backend (σ.clock + action.1) σ.db).2
      clock := σ.clock + action.1
      generated := σ.generated + 1 }

end Untangle
