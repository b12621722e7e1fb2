import Untangle.Auth.Sessions

/-!
# `Auth.Service` — organisations, memberships and invitations on both back ends

Model of `auth/service.py`: the functions of the migration on PostgreSQL, and the fallback on SQLite, each as one
transaction that reads the clock once. What the two share is one definition; what each asks of the caller differs.
How the statements of concurrent calls interleave stands in `Auth.Interleaving`.
-/

namespace Untangle

open Lib

def invitationTtlDays : ℤ := 7

namespace AuthDatabase

/-! ## Callers -/

/-- The principal of a valid session: every function asks for it, by its token. -/
def caller (tokenHash : String) (now : Instant) (db : AuthDatabase) : Option UserSession :=
  match db.findSession tokenHash with
  | none => none
  | some (_, s) => if s.val.live now && db.principalActive s.val.principalId then some s.val else none

/-- Someone who acts in an organisation, with the role in it. -/
structure Actor where
  organisationId : Nat
  principalId : Nat
  roleCode : Role
deriving DecidableEq, Repr

def invalidSession : AuthError := .raised "Unauthorized: invalid or expired session"

def noActiveOrganisation : AuthError := .raised "Unauthorized: session not found or no active organisation"

/-- The caller with an active membership in the session's active organisation: neither the version of the membership
    nor the organisation is looked at. Without a membership the fallback answers what it answers to the wrong role. -/
def activeActor (backend : Backend) (forbidden : AuthError) (tokenHash : String) (now : Instant) (db : AuthDatabase) :
    Except AuthError Actor :=
  match db.caller tokenHash now with
  | none => .error noActiveOrganisation
  | some s =>
    match s.active with
    | none => .error noActiveOrganisation
    | some (organisationId, _) =>
      match db.activeMembership organisationId s.principalId with
      | none => if backend = .postgres then .error noActiveOrganisation else .error forbidden
      | some m => .ok ⟨organisationId, s.principalId, m.roleCode⟩

def staleSession : AuthError := .raised "Unauthorized: invalid, expired, or stale session"

/-- The actor of `fn_membership_mutate_with_mutex`: the organisation is active, and the session is not stale. -/
def currentActor (tokenHash : String) (now : Instant) (db : AuthDatabase) : Except AuthError Actor :=
  match (db.findSession tokenHash).bind fun p => p.2.val.active with
  | none => .error noActiveOrganisation
  | some (organisationId, authVersion) =>
    match db.caller tokenHash now with
    | none => .error staleSession
    | some s =>
      match db.activeMembership organisationId s.principalId with
      | none => .error staleSession
      | some m =>
        if db.organisationActive organisationId && m.authVersion = authVersion then
          .ok ⟨organisationId, s.principalId, m.roleCode⟩
        else .error staleSession

/-- `IN ('owner', 'admin')`. -/
def mayManage (role : Role) : Bool := role = .owner || role = .admin

/-! ## Memberships -/

/-- `COUNT(*)` of the active owners of an organisation. -/
def activeOwners (organisationId : Nat) (db : AuthDatabase) : Nat :=
  db.memberships.items.countP fun p => p.1.1 = organisationId && p.2.roleCode = .owner && p.2.status = .active

/-- Whether a change takes an active owner away. -/
def demotes (target : OrganisationMembership) (newRoleCode newStatus : String) : Bool :=
  target.roleCode = .owner && target.status = .active &&
    (newRoleCode ≠ Role.owner.code || newStatus ≠ MembershipStatus.active.code)

def mayNotMutate : AuthError := .raised "Forbidden: only owners and admins may modify memberships"

/-- The member that an actor may change in a way, if any. -/
def mutationTarget (actor : Actor) (targetPrincipalId : Nat) (newRoleCode newStatus : String) (db : AuthDatabase) :
    Except AuthError OrganisationMembership := do
  refuseIf (mayManage actor.roleCode = false) mayNotMutate
  refuseIf (actor.principalId = targetPrincipalId)
    (.raised "Forbidden: users cannot modify their own membership role or status")
  match db.memberships.get? (actor.organisationId, targetPrincipalId) with
  | none => .error (.raised "Target member not found in organisation")
  | some target =>
    if actor.roleCode = .admin ∧ (target.roleCode = .owner ∨ newRoleCode = Role.owner.code) then
      .error (.raised "Forbidden: administrators cannot alter or assign owner roles")
    else if demotes target newRoleCode newStatus && db.activeOwners actor.organisationId ≤ 1 then
      .error (.raised
        ("Cannot demote or remove the last active owner of organisation " ++ toString actor.organisationId))
    else .ok target

/-- The membership after a change: the role is a foreign key, and the status is checked. -/
def mutated (target : OrganisationMembership) (newRoleCode newStatus : String) :
    Except AuthError OrganisationMembership :=
  match Role.ofCode? newRoleCode, MembershipStatus.ofCode? newStatus with
  | some role, some status => .ok { target with roleCode := role, status := status, authVersion := target.authVersion + 1 }
  | none, _ => .error .foreignKeyViolation
  | some _, none => .error .checkViolation

/-- A session of a principal in an organisation. -/
def memberSession (principalId organisationId : Nat) (s : UserSession) : Bool :=
  s.principalId = principalId && s.active.map Prod.fst = some organisationId

/-- A change of a membership by an actor; it revokes the member's sessions in the organisation. -/
def mutateAs (actor : Actor) (targetPrincipalId : Nat) (newRoleCode newStatus : String) (now : Instant)
    (db : AuthDatabase) : Except AuthError (OrganisationMembership × AuthDatabase) := do
  let target ← mutationTarget actor targetPrincipalId newRoleCode newStatus db
  let m ← mutated target newRoleCode newStatus
  let db : AuthDatabase :=
    { db with memberships := db.memberships.insert (actor.organisationId, targetPrincipalId) m }
  let db ← db.revokeSessions (memberSession targetPrincipalId actor.organisationId) now
  return (m, db)

/-- Who changes a membership: on SQLite the session may be stale and the organisation inactive. -/
def mutationActor (tokenHash : String) (now : Instant) (db : AuthDatabase) : Backend → Except AuthError Actor
  | .postgres => currentActor tokenHash now db
  | .sqlite => activeActor .sqlite mayNotMutate tokenHash now db

/-- `mutate_membership`. -/
def mutateMembership (backend : Backend) (tokenHash : String) (targetPrincipalId : Nat)
    (newRoleCode newStatus : String) (now : Instant) (db : AuthDatabase) :
    Except AuthError (OrganisationMembership × AuthDatabase) := do
  let actor ← mutationActor tokenHash now db backend
  mutateAs actor targetPrincipalId newRoleCode newStatus now db

/-- `create_organisation`: the organisation, with the caller as its owner. -/
def createOrganisation (tokenHash name : String) (now : Instant) (db : AuthDatabase) :
    Except AuthError (Nat × AuthDatabase) :=
  match db.caller tokenHash now with
  | none => .error invalidSession
  | some s => do
    let organisationId := db.organisations.length
    let db : AuthDatabase := { db with organisations := db.organisations ++ [{ name := name }] }
    let db ← db.insertMembership organisationId s.principalId { roleCode := .owner }
    return (organisationId, db)

/-! ## Invitations -/

section Invitations

variable (L : Letters)

/-- Whether an e-mail address is the one of an active member: PostgreSQL asks this of every principal with the
    address, the fallback of the first one that is stored with it. -/
def alreadyMember (backend : Backend) (organisationId : Nat) (email : String) (db : AuthDatabase) : Bool :=
  match backend with
  | .postgres => db.principals.zipIdx.any fun p =>
      L.postgres p.1.email = normEmail L .postgres email && (db.activeMembership organisationId p.2).isSome
  | .sqlite => (db.principals.findIdx? fun p => p.email = normEmail L .sqlite email).any fun principalId =>
      (db.activeMembership organisationId principalId).isSome

/-- Whether another invitation of the address is pending (`uq_org_invitations_pending_email`). -/
def alreadyPending (backend : Backend) (organisationId : Nat) (email : String) (db : AuthDatabase) : Bool :=
  db.invitations.any fun i => i.val.status = .pending && i.val.organisationId = organisationId &&
    indexedEmail L backend i.val.email = indexedEmail L backend email

def mayNotInvite : AuthError := .raised "Forbidden: only owners and admins may invite members"

/-- `create_invitation`: PostgreSQL looks the role up first, on SQLite the foreign key does. -/
def createInvitation (backend : Backend) (tokenHash email roleCode invitationTokenHash : String) (now : Instant)
    (db : AuthDatabase) : Except AuthError (Nat × AuthDatabase) := do
  let actor ← activeActor backend mayNotInvite tokenHash now db
  refuseIf (mayManage actor.roleCode = false) mayNotInvite
  refuseIf (actor.roleCode = .admin ∧ roleCode = Role.owner.code)
    (.raised "Forbidden: administrators cannot invite owners")
  refuseIf (backend = .postgres ∧ (Role.ofCode? roleCode).isNone) (.raised ("Invalid role code: " ++ roleCode))
  refuseIf (alreadyMember L backend actor.organisationId email db)
    (.raised ("User with email " ++ email ++ " is already an active member of this organisation"))
  refuseIf (alreadyPending L backend actor.organisationId (normEmail L backend email) db) .uniqueViolation
  refuseIf (db.findInvitation invitationTokenHash).isSome .uniqueViolation
  match Role.ofCode? roleCode with
  | none => .error .foreignKeyViolation
  | some role =>
    let row ← storeInvitation
      { organisationId := actor.organisationId
        invitedByPrincipalId := actor.principalId
        email := normEmail L backend email
        roleCode := role
        tokenHash := invitationTokenHash
        expiresAt := now + seconds (invitationTtlDays * 86400)
        createdAt := now }
    return (db.invitations.length, { db with invitations := db.invitations ++ [row] })

/-- What is answered to a token without an invitation. -/
def invitationUnknown : Backend → AuthError
  | .postgres => .raised "Invitation not found"
  | .sqlite => .raised "Invitation not found, expired, or already accepted"

/-- What is answered to the token of an invitation that is no longer open. -/
def invitationClosed : Backend → AuthError
  | .postgres => .raised "Invitation is no longer pending or has expired"
  | .sqlite => .raised "Invitation not found, expired, or already accepted"

def emailMismatch : AuthError := .raised "Invitation email does not match authenticated user"

/-- `accept_invitation`: the organisation and the role of the new membership, and the database. -/
def acceptInvitation (backend : Backend) (tokenHash invitationTokenHash : String) (now : Instant)
    (db : AuthDatabase) : Except AuthError ((Nat × Role) × AuthDatabase) :=
  match db.caller tokenHash now with
  | none => .error invalidSession
  | some s =>
    match db.principals[s.principalId]? with
    | none => .error invalidSession
    | some p =>
      match db.findInvitation invitationTokenHash with
      | none => .error (invitationUnknown backend)
      | some (invitationId, i) =>
        if i.val.status ≠ .pending ∨ i.val.expiresAt ≤ now then .error (invitationClosed backend)
        else if normEmail L backend p.email ≠ normEmail L backend i.val.email then .error emailMismatch
        else do
          let db ← db.updateInvitation invitationId { i.val with status := .accepted, acceptedAt := some now }
          let db ← db.insertMembership i.val.organisationId s.principalId { roleCode := i.val.roleCode }
          return ((i.val.organisationId, i.val.roleCode), db)

def mayNotRevoke : AuthError := .raised "Forbidden: only owners and admins may revoke invitations"

/-- `revoke_invitation`: whether it revoked a pending invitation, and the database. -/
def revokeInvitation (backend : Backend) (tokenHash : String) (invitationId : Nat) (now : Instant)
    (db : AuthDatabase) : Except AuthError (Bool × AuthDatabase) := do
  let actor ← activeActor backend mayNotRevoke tokenHash now db
  refuseIf (mayManage actor.roleCode = false) mayNotRevoke
  match db.invitations[invitationId]? with
  | none => return (false, db)
  | some i =>
    if i.val.organisationId = actor.organisationId ∧ i.val.status = .pending then
      let db ← db.updateInvitation invitationId { i.val with status := .revoked, revokedAt := some now }
      return (true, db)
    else return (false, db)

end Invitations

end AuthDatabase

end Untangle
