import Untangle.Lib.Noninterference
import Untangle.Webapp.Middleware
import Untangle.Auth.Oidc

/-!
# `Persistence.Maintenance` — what retention deletes

Model of `run_maintenance_purge` of `persistence/maintenance.py` and of the functions of the migration that it calls,
beside the identity service that goes on meanwhile: its calls, its sign-ins and its requests. A transaction of a sign-in
is created ten minutes before it expires, and the events that are kept are those of sign-ins. The identifier of a
session is its place in the table, so it changes with a purge; nothing reads it.
-/

namespace Untangle

open Lib

/-! ## Retentions -/

def maxRetentionDays : ℤ := 3650
def maxRetentionHours : ℤ := 87600

/-- What a caller gives for a retention. -/
inductive RetentionValue
  | int (n : ℤ)
  | bool (b : Bool)
  | other
deriving DecidableEq, Repr

/-- The arguments of `run_maintenance_purge`, with its defaults. -/
structure RetentionArguments where
  sessionsDays : RetentionValue := .int 30
  invitesDays : RetentionValue := .int 14
  secEventsDays : RetentionValue := .int 90
  oidcHours : RetentionValue := .int 1
deriving DecidableEq, Repr

/-- Retentions that were validated. -/
structure Retentions where
  sessionsDays : ℤ
  invitesDays : ℤ
  secEventsDays : ℤ
  oidcHours : ℤ
  sessions_pos : 1 ≤ sessionsDays
  invites_pos : 1 ≤ invitesDays
  secEvents_pos : 1 ≤ secEventsDays
  oidc_pos : 1 ≤ oidcHours

/-- `_validate_retention`. -/
def validateRetention (name : String) (value : RetentionValue) (maximum : ℤ) : Except String {n : ℤ // 1 ≤ n} :=
  let message := name ++ " must be an integer from 1 to " ++ toString maximum
  match value with
  | .int n => if h : 1 ≤ n ∧ n ≤ maximum then .ok ⟨n, h.1⟩ else .error message
  | _ => .error message

def RetentionArguments.validate (args : RetentionArguments) : Except String Retentions := do
  let sessions ← validateRetention "sessions_days" args.sessionsDays maxRetentionDays
  let invites ← validateRetention "invites_days" args.invitesDays maxRetentionDays
  let secEvents ← validateRetention "sec_events_days" args.secEventsDays maxRetentionDays
  let oidc ← validateRetention "oidc_hours" args.oidcHours maxRetentionHours
  return ⟨sessions.val, invites.val, secEvents.val, oidc.val, sessions.property, invites.property,
    secEvents.property, oidc.property⟩

/-- Days, in the unit of `Instant`. -/
def days (n : ℤ) : ℤ := seconds (n * 86400)

/-- Hours, in the unit of `Instant`. -/
def hours (n : ℤ) : ℤ := seconds (n * 3600)

/-! ## What is past its retention -/

/-- Revoked, or over in any case, before a time. -/
def UserSession.purgeable (cutoff : Instant) (s : UserSession) : Bool :=
  s.revokedAt.any (fun revoked => revoked < cutoff) || s.absoluteExpiresAt < cutoff

/-- `created_at`. -/
def OidcAuthTransaction.createdAt (tx : OidcAuthTransaction) : Instant := tx.expiresAt - seconds 600

/-- Created before a time, or consumed. -/
def OidcAuthTransaction.purgeable (cutoff : Instant) (tx : OidcAuthTransaction) : Bool :=
  tx.createdAt < cutoff || tx.consumedAt.isSome

def redactedEmail : String := "redacted@untangle.internal"

/-- Accepted or revoked before a time, with an address still. -/
def OrganisationInvitation.redactable (cutoff : Instant) (i : OrganisationInvitation) : Bool :=
  (i.status = .accepted || i.status = .revoked) &&
    (i.acceptedAt.any (fun accepted => accepted < cutoff) || i.revokedAt.any fun revoked => revoked < cutoff) &&
    i.email ≠ redactedEmail

def InvitationRecord.redact (i : InvitationRecord) : InvitationRecord :=
  ⟨{ i.val with email := redactedEmail }, i.property⟩

/-! ## The purge -/

structure PurgeCounts where
  securityEventsPurged : Nat
  oidcTransactionsPurged : Nat
  sessionsPurged : Nat
  invitationsRedacted : Nat
deriving DecidableEq, Repr

inductive PurgeOutcome
  | skipped
  | purged (counts : PurgeCounts)
deriving DecidableEq, Repr

/-- The identity tables, with the column `created_at` of the events. -/
structure RetainedDatabase extends OidcDatabase where
  eventsCreated : List Instant := []

namespace RetainedDatabase

/-- The events, each with the time at which it was recorded. -/
def datedEvents (db : RetainedDatabase) : List (SecurityEvent × Instant) := db.securityEvents.zip db.eventsCreated

/-- `fn_maintenance_purge_security_events`. -/
def purgeSecurityEvents (retentionDays : ℤ) (now : Instant) (db : RetainedDatabase) : Nat × RetainedDatabase :=
  let cutoff := now - days retentionDays
  let kept := db.datedEvents.filter fun event => cutoff ≤ event.2
  (db.datedEvents.countP fun event => event.2 < cutoff,
    { db with securityEvents := kept.map Prod.fst, eventsCreated := kept.map Prod.snd })

/-- `fn_maintenance_purge_oidc_transactions`. -/
def purgeOidcTransactions (retentionHours : ℤ) (now : Instant) (db : RetainedDatabase) : Nat × RetainedDatabase :=
  let cutoff := now - hours retentionHours
  (db.transactions.items.countP fun entry => entry.2.purgeable cutoff,
    { db with transactions := db.transactions.filter fun _ tx => !tx.purgeable cutoff })

/-- `fn_maintenance_purge_expired_sessions`. -/
def purgeExpiredSessions (retentionDays : ℤ) (now : Instant) (db : RetainedDatabase) : Nat × RetainedDatabase :=
  let cutoff := now - days retentionDays
  (db.sessions.countP fun s => s.val.purgeable cutoff,
    { db with sessions := db.sessions.filter fun s => !s.val.purgeable cutoff })

/-- `fn_maintenance_redact_accepted_invitations`. -/
def redactAcceptedInvitations (retentionDays : ℤ) (now : Instant) (db : RetainedDatabase) : Nat × RetainedDatabase :=
  let cutoff := now - days retentionDays
  (db.invitations.countP fun i => i.val.redactable cutoff,
    { db with invitations := db.invitations.map fun i => if i.val.redactable cutoff then i.redact else i })

/-- The four statements of a purge. -/
def purge (r : Retentions) (now : Instant) (db : RetainedDatabase) : PurgeCounts × RetainedDatabase :=
  let (secPurged, db) := db.purgeSecurityEvents r.secEventsDays now
  let (oidcPurged, db) := db.purgeOidcTransactions r.oidcHours now
  let (sessionsPurged, db) := db.purgeExpiredSessions r.sessionsDays now
  let (invitesRedacted, db) := db.redactAcceptedInvitations r.invitesDays now
  (⟨secPurged, oidcPurged, sessionsPurged, invitesRedacted⟩, db)

/-- `run_maintenance_purge`: the retentions are validated before anything else, and PostgreSQL lets only one purge run
    at a time. -/
def runMaintenancePurge (backend : Backend) (args : RetentionArguments) (lockHeld : Bool) (now : Instant)
    (db : RetainedDatabase) : Except String PurgeOutcome × RetainedDatabase :=
  match args.validate with
  | .error message => (.error message, db)
  | .ok r =>
    if backend = .postgres ∧ lockHeld then (.ok .skipped, db)
    else
      let (counts, db) := db.purge r now
      (.ok (.purged counts), db)

end RetainedDatabase

/-! ## What the service answers -/

/-- A session as it is looked up, but for its place in the table. -/
def SessionInfo.unnumbered (info : SessionInfo) : SessionInfo := { info with sessionId := 0 }

/-- What a call answers, as its callers tell answers apart: not whether a session that is over was still to be revoked,
    nor how many such sessions were. -/
inductive ServiceAnswer
  | done
  /-- A session that is revoked is no session. -/
  | found (info : Option SessionInfo)
  | wrote (b : Bool)
  | switched (membership : ℕ+ × Role)
  | organisation (organisationId : Nat)
  | membership (m : OrganisationMembership)
  | invitation (invitationId : Nat)
  | joined (organisationId : Nat) (role : Role)
deriving DecidableEq

/-- What a call answers, and the database. -/
def AuthDatabase.call (L : Letters) (backend : Backend) (db : AuthDatabase) (fresh : String) (now : Instant) :
    AuthOperation → Except AuthError (ServiceAnswer × AuthDatabase)
  | .createSession principalId activeOrgId =>
    (db.createSession backend principalId activeOrgId fresh now).map fun db => (.done, db)
  | .lookupSession tokenHash =>
    let info := (db.lookupSession backend tokenHash now).filter fun info => !info.isRevoked
    .ok (.found (info.map SessionInfo.unnumbered), db)
  | .touchSession tokenHash idleWindowSeconds throttleSeconds =>
    (db.touchSessionThrottled backend tokenHash now idleWindowSeconds throttleSeconds).map fun r => (.wrote r.1, r.2)
  | .switchOrganisation tokenHash targetOrgId =>
    (db.switchOrganisation backend tokenHash targetOrgId fresh now).map fun r => (.switched r.1, r.2)
  | .revokeSession tokenHash => (db.revokeSession tokenHash now).map fun r => (.done, r.2)
  | .revokeAllSessions tokenHash => (db.revokeAllSessions tokenHash now).map fun r => (.done, r.2)
  | .createOrganisation tokenHash name =>
    (db.createOrganisation tokenHash name now).map fun r => (.organisation r.1, r.2)
  | .mutateMembership tokenHash targetPrincipalId newRoleCode newStatus =>
    (db.mutateMembership backend tokenHash targetPrincipalId newRoleCode newStatus now).map fun r =>
      (.membership r.1, r.2)
  | .createInvitation tokenHash email roleCode =>
    (db.createInvitation L backend tokenHash email roleCode fresh now).map fun r => (.invitation r.1, r.2)
  | .acceptInvitation tokenHash invitationTokenHash =>
    (db.acceptInvitation L backend tokenHash invitationTokenHash now).map fun r => (.joined r.1.1 r.1.2, r.2)
  | .revokeInvitation tokenHash invitationId =>
    (db.revokeInvitation backend tokenHash invitationId now).map fun r => (.wrote r.1, r.2)

/-! ## Steps -/

inductive ServiceAction
  | call (operation : AuthOperation)
  | request (r : WebRequest)
  | initiate (answers : ProviderAnswers) (rawNonce codeVerifier returnTo : String)
  | callback (answers : ProviderAnswers) (code state : String)

inductive MaintainedAction
  /-- Time passes. -/
  | wait (duration : Nat)
  | serve (action : ServiceAction)
  | purge (args : RetentionArguments) (lockHeld : Bool)

inductive Party
  | service
  | maintenance
deriving DecidableEq

def MaintainedAction.party : MaintainedAction → Party
  | .purge _ _ => .maintenance
  | _ => .service

/-- What an action is answered. -/
inductive MaintainedAnswer
  | waited
  /-- The error of a call is left out. -/
  | called (answer : Option ServiceAnswer)
  | request (outcome : Except WebStop (Option (String × SessionInfo) × Option TenantContext))
  | initiated (outcome : Except OidcError String)
  | callback (outcome : Except OidcError (Nat × String))
  | purged (outcome : Except String PurgeOutcome)

/-- The database, the time, and how many tokens and states have been drawn. -/
structure MaintainedState where
  db : RetainedDatabase
  clock : Instant
  generated : Nat := 0

/-- A state with principals and trusted issuers, and nothing else yet. -/
def MaintainedState.initial (principals : List Principal) (trustedIssuers : Dict String Bool) (clock : Instant) :
    MaintainedState where
  db := { principals := principals, trustedIssuers := trustedIssuers }
  clock := clock

section Steps

variable (U : Unicode) (bracketedHost : List Char → Bool) (hmac : String → String → String) (settings : WebSettings)
  (lib : OidcLibraries) (mgr : OidcManager) (tokens states : Nat → String) (backend : Backend)

/-- The columns of the events that a sign-in has recorded. -/
def RetainedDatabase.signedIn (db : RetainedDatabase) (now : Instant) (db' : OidcDatabase) : RetainedDatabase where
  toOidcDatabase := db'
  eventsCreated :=
    db.eventsCreated ++ List.replicate (db'.securityEvents.length - db.securityEvents.length) now

/-- What the service answers, and the database. -/
def RetainedDatabase.serve (db : RetainedDatabase) (generated : Nat) (now : Instant) :
    ServiceAction → MaintainedAnswer × RetainedDatabase
  | .call operation =>
    match db.toAuthDatabase.call lib.letters backend (tokens generated) now operation with
    | .ok (answer, db') => (.called (some answer), { db with toAuthDatabase := db' })
    | .error _ => (.called none, db)
  | .request r =>
    let outcome := r.serve U bracketedHost lib.hashToken hmac settings backend now db.toAuthDatabase
    (.request (outcome.map fun state =>
        (state.session.map fun found => (found.1, found.2.unnumbered), state.tenantContext)),
      { db with toAuthDatabase := (r.authenticate lib.hashToken settings backend now db.toAuthDatabase).2 })
  | .initiate answers rawNonce codeVerifier returnTo =>
    let flow := createAuthorizationFlow lib backend mgr answers (states generated) rawNonce codeVerifier returnTo now
    let (outcome, db') := flow.close db.toOidcDatabase
    (.initiated outcome, db.signedIn now db')
  | .callback answers code state =>
    let (outcome, db') := db.toOidcDatabase.callback lib backend mgr answers code state now
    (.callback outcome, db.signedIn now db')

/-- One action. Only those of the service draw tokens and states. -/
def MaintainedState.perform (action : MaintainedAction) (σ : MaintainedState) : MaintainedAnswer × MaintainedState :=
  match action with
  | .wait duration => (.waited, { σ with clock := σ.clock + duration })
  | .serve action =>
    let (answer, db') :=
      σ.db.serve U bracketedHost hmac settings lib mgr tokens states backend σ.generated σ.clock action
    (answer, { σ with db := db', generated := σ.generated + 1 })
  | .purge args lockHeld =>
    let (outcome, db') := σ.db.runMaintenancePurge backend args lockHeld σ.clock
    (.purged outcome, { σ with db := db' })

end Steps

end Untangle
