import Untangle.Engine.Text
import Untangle.Lib.Dict
import Untangle.Lib.Fallible
import Untangle.Persistence.Job
import Untangle.Persistence.Run

/-!
# `Auth.Tables` — principals, organisations, memberships, sessions and invitations

Model of the identity tables of `persistence/models.py` and of the migration `0002_auth_federation_sessions.py`. A row
that violates a CHECK constraint cannot be built, and a unique key over two columns is the key of a dictionary. The
other rows are listed in the order of their identifiers, and nothing deletes one. A public identifier stands for the
identifier itself, and a token for its hash. Audit and security events are left out: they are written with the rest of
their transaction and nothing reads them.
-/

namespace Untangle

open Lib

/-! ## E-mail addresses -/

/-- How letters are lowered: by Python, and by the SQL function of each database. -/
structure Letters where
  python : String → String
  postgres : String → String
  sqlite : String → String

/-- SQL's `trim`: spaces only. -/
def trimSpaces (s : String) : String :=
  String.ofList (((s.toList.dropWhile fun c => c = ' ').reverse.dropWhile fun c => c = ' ').reverse)

/-- `lower(trim(email))` in the functions of the migration, `email.lower().strip()` in the fallback. -/
def normEmail (L : Letters) (backend : Backend) (email : String) : String :=
  match backend with
  | .postgres => L.postgres (trimSpaces email)
  | .sqlite => strip (L.python email)

/-- The column of `uq_org_invitations_pending_email`. -/
def indexedEmail (L : Letters) (backend : Backend) (email : String) : String :=
  match backend with
  | .postgres => L.postgres (trimSpaces email)
  | .sqlite => L.sqlite (trimSpaces email)

/-! ## Rows -/

/-- The codes of the `roles` table. -/
def Role.code : Role → String
  | .owner => "owner"
  | .admin => "admin"
  | .operator => "operator"
  | .reviewer => "reviewer"
  | .auditor => "auditor"

def Role.ofCode? (code : String) : Option Role :=
  [Role.owner, .admin, .operator, .reviewer, .auditor].find? fun role => role.code = code

inductive MembershipStatus
  | active
  | suspended
  | invited
deriving DecidableEq, Repr

def MembershipStatus.code : MembershipStatus → String
  | .active => "active"
  | .suspended => "suspended"
  | .invited => "invited"

/-- `chk_memberships_status_allowed`. -/
def MembershipStatus.ofCode? (code : String) : Option MembershipStatus :=
  [MembershipStatus.active, .suspended, .invited].find? fun status => status.code = code

structure Principal where
  email : String
  displayName : String := ""
  isActive : Bool := true
deriving DecidableEq, Repr

structure Organisation where
  name : String := ""
  isActive : Bool := true
deriving DecidableEq, Repr

/-- A version is positive (`chk_memberships_auth_version_positive`). -/
structure OrganisationMembership where
  roleCode : Role
  status : MembershipStatus := .active
  authVersion : ℕ+ := ⟨1, Nat.one_pos⟩
deriving DecidableEq

structure UserSession where
  principalId : Nat
  sessionTokenHash : String
  /-- The active organisation and the version of the membership in it: both or none of them
      (`chk_sessions_org_version_consistency`). -/
  active : Option (Nat × ℕ+) := none
  lastActiveAt : Instant
  idleExpiresAt : Instant
  absoluteExpiresAt : Instant
  revokedAt : Option Instant := none
  createdAt : Instant
deriving DecidableEq

/-- `chk_sessions_timestamp_ordering` and `chk_sessions_revoked_after_created`. -/
def UserSession.check (s : UserSession) : Bool :=
  s.lastActiveAt ≤ s.idleExpiresAt && s.idleExpiresAt ≤ s.absoluteExpiresAt &&
    s.revokedAt.all fun revoked => s.createdAt ≤ revoked

inductive InvitationStatus
  | pending
  | accepted
  | revoked
  | expired
deriving DecidableEq, Repr

structure OrganisationInvitation where
  organisationId : Nat
  invitedByPrincipalId : Nat
  email : String
  roleCode : Role
  tokenHash : String
  status : InvitationStatus := .pending
  expiresAt : Instant
  acceptedAt : Option Instant := none
  revokedAt : Option Instant := none
  createdAt : Instant
deriving DecidableEq

/-- `chk_invitations_lifecycle`. -/
def OrganisationInvitation.lifecycle (i : OrganisationInvitation) : Bool :=
  match i.status with
  | .pending => i.acceptedAt.isNone && i.revokedAt.isNone
  | .accepted => i.acceptedAt.isSome && i.revokedAt.isNone
  | .revoked => i.revokedAt.isSome && i.acceptedAt.isNone
  | .expired => i.acceptedAt.isNone

/-- `chk_invitations_lifecycle` and `chk_invitations_expiry_order`. -/
def OrganisationInvitation.check (i : OrganisationInvitation) : Bool := i.lifecycle && i.createdAt < i.expiresAt

/-- A row that the session table can hold. -/
abbrev SessionRecord := {s : UserSession // s.check = true}

/-- A row that the invitation table can hold. -/
abbrev InvitationRecord := {i : OrganisationInvitation // i.check = true}

/-- Why a call of the control plane raises. -/
inductive AuthError
  | raised (message : String)
  | checkViolation
  | foreignKeyViolation
  | uniqueViolation
deriving DecidableEq, Repr

def storeSession (s : UserSession) : Except AuthError SessionRecord :=
  if h : s.check = true then .ok ⟨s, h⟩ else .error .checkViolation

def storeInvitation (i : OrganisationInvitation) : Except AuthError InvitationRecord :=
  if h : i.check = true then .ok ⟨i, h⟩ else .error .checkViolation

/-! ## The database -/

structure AuthDatabase where
  principals : List Principal := []
  organisations : List Organisation := []
  /-- By organisation and principal (`uq_memberships_org_principal`). -/
  memberships : Dict (Nat × Nat) OrganisationMembership := Dict.empty
  sessions : List SessionRecord := []
  invitations : List InvitationRecord := []

/-- A session that is neither revoked nor expired. -/
def UserSession.live (s : UserSession) (now : Instant) : Bool :=
  s.revokedAt.isNone && now < s.absoluteExpiresAt && now < s.idleExpiresAt

namespace AuthDatabase

variable (db : AuthDatabase)

/-- The session of a token, with its identifier. -/
def findSession (tokenHash : String) : Option (Nat × SessionRecord) :=
  (db.sessions.findIdx? fun s => s.val.sessionTokenHash = tokenHash).bind fun i =>
    db.sessions[i]?.map fun s => (i, s)

/-- The invitation of a token, with its identifier. -/
def findInvitation (tokenHash : String) : Option (Nat × InvitationRecord) :=
  (db.invitations.findIdx? fun i => i.val.tokenHash = tokenHash).bind fun n =>
    db.invitations[n]?.map fun i => (n, i)

def principalActive (principalId : Nat) : Bool := db.principals[principalId]?.any Principal.isActive

def organisationActive (organisationId : Nat) : Bool := db.organisations[organisationId]?.any Organisation.isActive

/-- The membership, if it is active. -/
def activeMembership (organisationId principalId : Nat) : Option OrganisationMembership :=
  (db.memberships.get? (organisationId, principalId)).filter fun m => m.status = .active

/-- `INSERT INTO organisation_memberships`. -/
def insertMembership (organisationId principalId : Nat) (m : OrganisationMembership) : Except AuthError AuthDatabase :=
  if (db.memberships.get? (organisationId, principalId)).isSome then .error .uniqueViolation
  else if db.organisations[organisationId]?.isNone ∨ db.principals[principalId]?.isNone then
    .error .foreignKeyViolation
  else .ok { db with memberships := db.memberships.insert (organisationId, principalId) m }

/-- Whether a token belongs to another session than the one given. -/
def tokenTaken (tokenHash : String) (sessionId : Nat) : Bool :=
  db.sessions.zipIdx.any fun p => p.1.val.sessionTokenHash = tokenHash && p.2 ≠ sessionId

/-- An update of one session, with the CHECK constraints and the unique token. -/
def updateSession (sessionId : Nat) (s : UserSession) : Except AuthError AuthDatabase := do
  refuseIf (db.tokenTaken s.sessionTokenHash sessionId) .uniqueViolation
  let row ← storeSession s
  return { db with sessions := db.sessions.set sessionId row }

/-- `UPDATE user_sessions SET revoked_at = … WHERE … AND revoked_at IS NULL`. -/
def revokeSessions (which : UserSession → Bool) (now : Instant) : Except AuthError AuthDatabase := do
  let rows ← db.sessions.mapM fun s =>
    if which s.val && s.val.revokedAt.isNone then storeSession { s.val with revokedAt := some now } else pure s
  return { db with sessions := rows }

/-- An update of one invitation, with its CHECK constraints. -/
def updateInvitation (invitationId : Nat) (i : OrganisationInvitation) : Except AuthError AuthDatabase := do
  let row ← storeInvitation i
  return { db with invitations := db.invitations.set invitationId row }

end AuthDatabase

end Untangle
