import Untangle.Auth.Tables

/-!
# `Auth.Sessions` — sessions on both back ends

Model of `auth/sessions.py`: what the functions of the migration do on PostgreSQL, and the fallback on SQLite. A call
reads the clock once. Tokens are generated by the caller of the database; here they are arguments.
-/

namespace Untangle

open Lib

/-- Seconds, in the unit of `Instant`. -/
def seconds (n : ℤ) : ℤ := n * 1000000

def idleTimeoutSeconds : ℤ := 1800
def absoluteTimeoutSeconds : ℤ := 43200
def touchThrottleSeconds : ℤ := 60

/-- What `lookup_session` returns. -/
structure SessionInfo where
  sessionId : Nat
  principalId : Nat
  principalEmail : String
  principalDisplayName : String
  activeOrganisationId : Option Nat
  /-- The organisation whose public identifier is given. -/
  activeOrgPublicId : Option Nat
  activeRoleCode : Option Role
  idleExpiresAt : Instant
  absoluteExpiresAt : Instant
  lastActiveAt : Instant
  isRevoked : Bool
  isStale : Bool
deriving DecidableEq, Repr

namespace AuthDatabase

/-! ## Creation -/

/-- The membership that a new session is bound to: PostgreSQL also asks that the principal and the organisation are
    active. -/
def bindingFor (backend : Backend) (principalId : Nat) (activeOrgId : Option Nat) (db : AuthDatabase) :
    Except AuthError (Option (Nat × ℕ+)) :=
  if backend = .postgres ∧ db.principalActive principalId = false then
    .error (.raised "Principal not found or inactive")
  else
    match activeOrgId with
    | none => .ok none
    | some organisationId =>
      let missing : AuthError := .raised ("No active membership in organisation " ++ toString organisationId)
      match db.activeMembership organisationId principalId with
      | none => .error missing
      | some m =>
        if backend = .postgres ∧ db.organisationActive organisationId = false then .error missing
        else .ok (some (organisationId, m.authVersion))

/-- `create_session`. -/
def createSession (backend : Backend) (principalId : Nat) (activeOrgId : Option Nat) (tokenHash : String)
    (now : Instant) (db : AuthDatabase) : Except AuthError AuthDatabase := do
  let active ← bindingFor backend principalId activeOrgId db
  refuseIf db.principals[principalId]?.isNone .foreignKeyViolation
  refuseIf (db.findSession tokenHash).isSome .uniqueViolation
  let row ← storeSession
    { principalId := principalId
      sessionTokenHash := tokenHash
      active := active
      lastActiveAt := now
      idleExpiresAt := now + seconds idleTimeoutSeconds
      absoluteExpiresAt := now + seconds absoluteTimeoutSeconds
      createdAt := now }
  return { db with sessions := db.sessions ++ [row] }

/-! ## Lookup -/

/-- Revoked, expired, or of an inactive principal. -/
def isRevoked (s : UserSession) (p : Principal) (now : Instant) : Bool :=
  s.revokedAt.isSome || s.absoluteExpiresAt ≤ now || s.idleExpiresAt ≤ now || !p.isActive

/-- The membership of an active organisation no longer is what the session was bound to. -/
def outdated (o : Organisation) (m : OrganisationMembership) (authVersion : ℕ+) : Bool :=
  m.status ≠ .active || !o.isActive || m.authVersion ≠ authVersion

/-- Whether the session is stale, the organisation and the role, of a session that is bound to an organisation:
    PostgreSQL names the last two also if the session is stale. -/
def standing (backend : Backend) (principalId organisationId : Nat) (authVersion : ℕ+) (db : AuthDatabase) :
    Bool × Option Nat × Option Role :=
  match db.organisations[organisationId]?, db.memberships.get? (organisationId, principalId) with
  | none, _ => (true, none, none)
  | some _, none =>
    match backend with
    | .postgres => (true, some organisationId, none)
    | .sqlite => (true, none, none)
  | some o, some m =>
    if outdated o m authVersion then
      match backend with
      | .postgres => (true, some organisationId, some m.roleCode)
      | .sqlite => (true, none, none)
    else (false, some organisationId, some m.roleCode)

/-- `lookup_session`. -/
def lookupSession (backend : Backend) (tokenHash : String) (now : Instant) (db : AuthDatabase) : Option SessionInfo :=
  match db.findSession tokenHash with
  | none => none
  | some (sessionId, s) =>
    match db.principals[s.val.principalId]? with
    | none => none
    | some p =>
      let found :=
        match s.val.active with
        | none => (false, none, none)
        | some (organisationId, authVersion) => standing backend s.val.principalId organisationId authVersion db
      some {
        sessionId := sessionId
        principalId := s.val.principalId
        principalEmail := p.email
        principalDisplayName := p.displayName
        activeOrganisationId := s.val.active.map Prod.fst
        activeOrgPublicId := found.2.1
        activeRoleCode := found.2.2
        idleExpiresAt := s.val.idleExpiresAt
        absoluteExpiresAt := s.val.absoluteExpiresAt
        lastActiveAt := s.val.lastActiveAt
        isRevoked := isRevoked s.val p now
        isStale := found.1 }

/-! ## Activity -/

/-- Whether the last activity is long enough ago: at the very throttle only the fallback writes. -/
def pastThrottle (backend : Backend) (s : UserSession) (throttleSeconds : ℤ) (now : Instant) : Bool :=
  match backend with
  | .postgres => s.lastActiveAt < now - seconds throttleSeconds
  | .sqlite => s.lastActiveAt ≤ now - seconds throttleSeconds

/-- `touch_session_throttled`: whether it wrote, and the database. -/
def touchSessionThrottled (backend : Backend) (tokenHash : String) (now : Instant) (db : AuthDatabase)
    (idleWindowSeconds : ℤ := idleTimeoutSeconds) (throttleSeconds : ℤ := touchThrottleSeconds) :
    Except AuthError (Bool × AuthDatabase) :=
  match db.findSession tokenHash with
  | none => .ok (false, db)
  | some (sessionId, s) =>
    if s.val.live now && pastThrottle backend s.val throttleSeconds now then do
      let db' ← db.updateSession sessionId
        { s.val with
          lastActiveAt := now
          idleExpiresAt := min (now + seconds idleWindowSeconds) s.val.absoluteExpiresAt }
      return (true, db')
    else .ok (false, db)

/-! ## Revocation -/

/-- `revoke_session`. -/
def revokeSession (tokenHash : String) (now : Instant) (db : AuthDatabase) : Except AuthError (Bool × AuthDatabase) :=
  match db.findSession tokenHash with
  | none => .ok (false, db)
  | some (sessionId, s) =>
    if s.val.revokedAt.isNone then do
      let db' ← db.updateSession sessionId { s.val with revokedAt := some now }
      return (true, db')
    else .ok (false, db)

/-- `revoke_all_sessions`: how many it revoked, and the database. -/
def revokeAllSessions (tokenHash : String) (now : Instant) (db : AuthDatabase) :
    Except AuthError (Nat × AuthDatabase) :=
  match db.findSession tokenHash with
  | none => .ok (0, db)
  | some (_, s) =>
    if s.val.live now then do
      let db' ← db.revokeSessions (fun t => t.principalId = s.val.principalId) now
      return (db.sessions.countP fun t => t.val.principalId = s.val.principalId && t.val.revokedAt.isNone, db')
    else .ok (0, db)

/-! ## Switching -/

/-- `switch_organisation`: the version and the role of the new membership, and the database. Only PostgreSQL asks that
    the principal is active. -/
def switchOrganisation (backend : Backend) (tokenHash : String) (targetOrgId : Nat) (newTokenHash : String)
    (now : Instant) (db : AuthDatabase) : Except AuthError ((ℕ+ × Role) × AuthDatabase) :=
  match db.findSession tokenHash with
  | none => .error (.raised "Unauthorized: invalid or expired session")
  | some (sessionId, s) =>
    if s.val.live now && (backend = .sqlite || db.principalActive s.val.principalId) then
      if db.organisationActive targetOrgId then
        match db.activeMembership targetOrgId s.val.principalId with
        | none => .error (.raised "Target organisation not found or no active membership")
        | some m => do
          let db' ← db.updateSession sessionId
            { s.val with
              active := some (targetOrgId, m.authVersion)
              sessionTokenHash := newTokenHash
              lastActiveAt := now
              idleExpiresAt := min (now + seconds idleTimeoutSeconds) s.val.absoluteExpiresAt }
          return ((m.authVersion, m.roleCode), db')
      else .error (.raised "Target organisation not found or no active membership")
    else .error (.raised "Unauthorized: invalid or expired session")

end AuthDatabase

end Untangle
