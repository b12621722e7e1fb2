import Untangle.Auth.System
import Untangle.Lib.Locks

/-!
# `Auth.Interleaving` — the functions with a mutex, statement by statement

Model of `fn_invitation_accept_with_mutex`, `fn_invitation_revoke` and `fn_membership_mutate_with_mutex` on PostgreSQL,
as any number of sessions run them side by side. A call is a transaction: `NOW()` is when it began, each of its
statements sees what is committed when the statement runs, a row that it has locked stays locked until its end, and
what it writes is seen by others when it commits. A call that meets a lock waits. The other calls of the identity
service are one statement each and run between two statements of these.

The functions write the tenant and their audit events last; this is part of the commit here.
-/

namespace Untangle

open Lib

/-- What is locked: `SELECT … FOR UPDATE` locks organisations, `UPDATE` the rows that it changes. -/
inductive LockedRow
  | organisation (organisationId : Nat)
  | invitation (invitationId : Nat)
  | session (sessionId : Nat)
deriving DecidableEq, Repr

inductive AuthCall
  | acceptInvitation (tokenHash invitationTokenHash : String)
  | revokeInvitation (tokenHash : String) (invitationId : Nat)
  | mutateMembership (tokenHash : String) (targetPrincipalId : Nat) (newRoleCode newStatus : String)
deriving DecidableEq, Repr

/-- What a call that commits answers. -/
inductive AuthAnswer
  | accepted (invitationId organisationId principalId : Nat)
  | revoked (invitationId : Nat) (changed : Bool)
  | mutated (actor : AuthDatabase.Actor) (targetPrincipalId : Nat)
deriving DecidableEq, Repr

open AuthDatabase

/-- How far a call has come, with what it has read and what it is about to write. -/
inductive Phase
  | begun
  /-- The caller of an acceptance is read, -/
  | called (principalId : Nat) (email : String)
  /-- so is the invitation, and it is pending, -/
  | invited (principalId invitationId : Nat) (i : OrganisationInvitation)
  /-- the organisation is locked, -/
  | joining (principalId invitationId : Nat) (i : OrganisationInvitation)
  /-- the invitation is updated, -/
  | answering (principalId invitationId : Nat) (i : OrganisationInvitation) (row : InvitationRecord)
  /-- and the membership is inserted. -/
  | joined (principalId invitationId : Nat) (i : OrganisationInvitation) (row : InvitationRecord)
  /-- The actor of a revocation is read, -/
  | revoking (actor : Actor)
  /-- so is the invitation, and it is one of the organisation, -/
  | revocable (invitationId : Nat)
  /-- and it is updated, unless no row was to change. -/
  | revoked (invitationId : Nat) (row : Option InvitationRecord)
  /-- The organisation of a mutation is read, -/
  | entering (organisationId : Nat)
  /-- it is locked, -/
  | entered (organisationId : Nat)
  /-- the actor is read, -/
  | acting (actor : Actor)
  /-- so is the member, whose owners are to be counted, -/
  | counting (actor : Actor) (target : OrganisationMembership)
  /-- or who may be changed, -/
  | changing (actor : Actor) (target : OrganisationMembership)
  /-- the membership is updated, -/
  | changed (actor : Actor) (target m : OrganisationMembership)
  /-- and the sessions of the member are revoked. -/
  | ending (actor : Actor) (target m : OrganisationMembership) (rows : List (Nat × SessionRecord))
  | committed (answer : AuthAnswer)
  | aborted (e : AuthError)

/-- The locks that a call holds. -/
def Phase.holds : Phase → List LockedRow
  | .joining _ _ i => [.organisation i.organisationId]
  | .answering _ invitationId i _ | .joined _ invitationId i _ =>
    [.organisation i.organisationId, .invitation invitationId]
  | .revoked invitationId (some _) => [.invitation invitationId]
  | .entered organisationId => [.organisation organisationId]
  | .acting actor | .counting actor _ | .changing actor _ | .changed actor _ _ =>
    [.organisation actor.organisationId]
  | .ending actor _ _ rows => .organisation actor.organisationId :: rows.map fun p => .session p.1
  | _ => []

/-- What the next statement of a call leads to: it waits, goes on, fails, or commits a database. -/
inductive Outcome
  | waits
  | goes (phase : Phase)
  | fails (e : AuthError)
  | commits (answer : AuthAnswer) (db : AuthDatabase)

section Statements

variable (L : Letters) (db : AuthDatabase) (locked : LockedRow → Bool) (now : Instant)

/-- `fn_invitation_accept_with_mutex`. -/
def acceptStatement (tokenHash invitationTokenHash : String) : Phase → Outcome
  | .begun =>
    match db.caller tokenHash now with
    | none => .fails invalidSession
    | some s =>
      match db.principals[s.principalId]? with
      | none => .fails invalidSession
      | some p => .goes (.called s.principalId p.email)
  | .called principalId email =>
    match db.findInvitation invitationTokenHash with
    | none => .fails (invitationUnknown .postgres)
    | some (invitationId, i) =>
      if i.val.status ≠ .pending ∨ i.val.expiresAt ≤ now then .fails (invitationClosed .postgres)
      else if normEmail L .postgres i.val.email ≠ normEmail L .postgres email then .fails emailMismatch
      else .goes (.invited principalId invitationId i.val)
  | .invited principalId invitationId i =>
    if locked (.organisation i.organisationId) then .waits else .goes (.joining principalId invitationId i)
  | .joining principalId invitationId i =>
    -- The update is of the row as it is now: neither its status nor its expiry is looked at again.
    if locked (.invitation invitationId) then .waits
    else match db.invitations[invitationId]? with
      | none => .fails (invitationUnknown .postgres)
      | some i' =>
        match storeInvitation { i'.val with status := .accepted, acceptedAt := some now } with
        | .error e => .fails e
        | .ok row => .goes (.answering principalId invitationId i row)
  | .answering principalId invitationId i row =>
    match db.insertMembership i.organisationId principalId { roleCode := i.roleCode } with
    | .error e => .fails e
    | .ok _ => .goes (.joined principalId invitationId i row)
  | .joined principalId invitationId i row =>
    .commits (.accepted invitationId i.organisationId principalId) { db with
      invitations := db.invitations.set invitationId row
      memberships := db.memberships.insert (i.organisationId, principalId) { roleCode := i.roleCode } }
  | _ => .waits

/-- `fn_invitation_revoke`. -/
def revokeStatement (tokenHash : String) (invitationId : Nat) : Phase → Outcome
  | .begun =>
    match activeActor .postgres mayNotRevoke tokenHash now db with
    | .error e => .fails e
    | .ok actor => if mayManage actor.roleCode then .goes (.revoking actor) else .fails mayNotRevoke
  | .revoking actor =>
    match db.invitations[invitationId]? with
    | none => .goes (.revoked invitationId none)
    | some i =>
      if i.val.organisationId = actor.organisationId then .goes (.revocable invitationId)
      else .goes (.revoked invitationId none)
  | .revocable invitationId =>
    match db.invitations[invitationId]? with
    | none => .goes (.revoked invitationId none)
    | some i =>
      if i.val.status ≠ .pending then .goes (.revoked invitationId none)
      -- A row that is locked is looked at again when the lock is gone.
      else if locked (.invitation invitationId) then .waits
      else match storeInvitation { i.val with status := .revoked, revokedAt := some now } with
        | .error e => .fails e
        | .ok row => .goes (.revoked invitationId (some row))
  | .revoked invitationId none => .commits (.revoked invitationId false) db
  | .revoked invitationId (some row) =>
    .commits (.revoked invitationId true) { db with invitations := db.invitations.set invitationId row }
  | _ => .waits

/-- The rows of `UPDATE user_sessions SET revoked_at = NOW() WHERE … AND revoked_at IS NULL`. -/
def revokedRows (which : UserSession → Bool) : Except AuthError (List (Nat × SessionRecord)) :=
  (db.sessions.zipIdx.filter fun p => which p.1.val && p.1.val.revokedAt.isNone).mapM fun p => do
    let row ← storeSession { p.1.val with revokedAt := some now }
    return (p.2, row)

/-- Sessions with some of their rows written. -/
def writeSessions (rows : List (Nat × SessionRecord)) (sessions : List SessionRecord) : List SessionRecord :=
  rows.foldl (fun sessions p => sessions.set p.1 p.2) sessions

/-- `fn_membership_mutate_with_mutex`. -/
def mutateStatement (tokenHash : String) (targetPrincipalId : Nat) (newRoleCode newStatus : String) :
    Phase → Outcome
  | .begun =>
    match (db.findSession tokenHash).bind fun p => p.2.val.active with
    | none => .fails noActiveOrganisation
    | some (organisationId, _) => .goes (.entering organisationId)
  | .entering organisationId =>
    if locked (.organisation organisationId) then .waits else .goes (.entered organisationId)
  | .entered organisationId =>
    match currentActor tokenHash now db with
    | .error _ => .fails staleSession
    | .ok actor =>
      if mayManage actor.roleCode = false then .fails mayNotMutate
      else if actor.principalId = targetPrincipalId then
        .fails (.raised "Forbidden: users cannot modify their own membership role or status")
      -- The actor is the one of the session's organisation; what follows is about the one that was read first.
      else .goes (.acting { actor with organisationId := organisationId })
  | .acting actor =>
    match db.memberships.get? (actor.organisationId, targetPrincipalId) with
    | none => .fails (.raised "Target member not found in organisation")
    | some target =>
      if actor.roleCode = .admin ∧ (target.roleCode = .owner ∨ newRoleCode = Role.owner.code) then
        .fails (.raised "Forbidden: administrators cannot alter or assign owner roles")
      else if demotes target newRoleCode newStatus then .goes (.counting actor target)
      else .goes (.changing actor target)
  | .counting actor target =>
    if db.activeOwners actor.organisationId ≤ 1 then
      .fails (.raised
        ("Cannot demote or remove the last active owner of organisation " ++ toString actor.organisationId))
    else .goes (.changing actor target)
  | .changing actor target =>
    match mutated target newRoleCode newStatus with
    | .error e => .fails e
    | .ok m => .goes (.changed actor target m)
  | .changed actor target m =>
    match revokedRows db now (memberSession targetPrincipalId actor.organisationId) with
    | .error e => .fails e
    | .ok rows =>
      if rows.any fun p => locked (.session p.1) then .waits else .goes (.ending actor target m rows)
  | .ending actor _ m rows =>
    .commits (.mutated actor targetPrincipalId) { db with
      memberships := db.memberships.insert (actor.organisationId, targetPrincipalId) m
      sessions := writeSessions rows db.sessions }
  | _ => .waits

def statement : AuthCall → Phase → Outcome
  | .acceptInvitation tokenHash invitationTokenHash => acceptStatement L db locked now tokenHash invitationTokenHash
  | .revokeInvitation tokenHash invitationId => revokeStatement db locked now tokenHash invitationId
  | .mutateMembership tokenHash targetPrincipalId newRoleCode newStatus =>
    mutateStatement db locked now tokenHash targetPrincipalId newRoleCode newStatus

end Statements

/-! ## Runs -/

/-- A call that has begun. -/
structure RunningCall where
  call : AuthCall
  startedAt : Instant
  phase : Phase := .begun

def RunningCall.holds (r : RunningCall) : List LockedRow := r.phase.holds

def RunningCall.ended (r : RunningCall) : Bool :=
  match r.phase with
  | .committed _ | .aborted _ => true
  | _ => false

/-- What is committed, and the calls that have begun. -/
structure ConcurrentState extends AuthState where
  calls : List RunningCall := []

inductive ConcurrentAction
  | start (call : AuthCall)
  /-- The next statement of a call. -/
  | next (callId : Nat)
  /-- A call ends without a commit, for any reason. -/
  | abort (callId : Nat)
  /-- Another call of the identity service. -/
  | other (op : AuthOperation)

/-- The calls that run statement by statement. -/
def AuthOperation.interleaves : AuthOperation → Bool
  | .mutateMembership .. | .acceptInvitation .. | .revokeInvitation .. => true
  | _ => false

/-- Whether a call would change a session that is locked. -/
def ConcurrentState.blocks (σ : ConcurrentState) (db : AuthDatabase) : Bool :=
  σ.calls.any fun r => r.holds.any fun row =>
    match row with
    | .session i => db.sessions[i]? ≠ σ.db.sessions[i]?
    | _ => false

section Steps

variable (L : Letters) (tokens : Nat → String)

/-- The call after its next statement, and the database. -/
def RunningCall.after (db : AuthDatabase) (r : RunningCall) : Outcome → RunningCall × AuthDatabase
  | .waits => (r, db)
  | .goes phase => ({ r with phase := phase }, db)
  | .fails e => ({ r with phase := .aborted e }, db)
  | .commits answer db => ({ r with phase := .committed answer }, db)

/-- The next statement of a call, which sees what is committed. -/
def ConcurrentState.next (σ : ConcurrentState) (callId : Nat) (r : RunningCall) : RunningCall × AuthDatabase :=
  r.after σ.db (statement L σ.db (busy RunningCall.holds σ.calls callId) r.startedAt r.call r.phase)

/-- The call that is ended, unless it is over. -/
def RunningCall.abort (r : RunningCall) : RunningCall :=
  if r.ended then r else { r with phase := .aborted (.raised "terminating connection") }

/-- What another call of the identity service commits: nothing, if it is one of those above or meets a lock. -/
def ConcurrentState.beside (σ : ConcurrentState) (now : Instant) (op : AuthOperation) : AuthDatabase :=
  if op.interleaves then σ.db
  else match σ.db.perform L .postgres (tokens σ.generated) now op with
    | .error _ => σ.db
    | .ok db => if σ.blocks db then σ.db else db

/-- One step, some time after the last one. -/
def ConcurrentState.step (σ : ConcurrentState) (action : Nat × ConcurrentAction) : ConcurrentState :=
  let now := σ.clock + action.1
  let σ' : ConcurrentState := { σ with clock := now, generated := σ.generated + 1 }
  match action.2 with
  | .start call => { σ' with calls := σ.calls ++ [{ call := call, startedAt := now }] }
  | .next callId =>
    match σ.calls[callId]? with
    | none => σ'
    | some r => { σ' with
        db := (σ.next L callId r).2
        calls := σ.calls.set callId (σ.next L callId r).1 }
  | .abort callId =>
    match σ.calls[callId]? with
    | none => σ'
    | some r => { σ' with calls := σ.calls.set callId r.abort }
  | .other op => { σ' with db := σ.beside L tokens now op }

end Steps

end Untangle
