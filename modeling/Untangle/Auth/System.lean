import Untangle.Auth.Service
import Untangle.Lib.Runs

/-!
# `Auth.System` — calls of the identity service, one after the other

The machine whose steps are the calls of `auth/sessions.py` and `auth/service.py`, each one transaction, on a clock
that never goes back. A call that raises leaves the database as it is. The tokens that sessions and invitations are
given come from a source, one after the other; the tokens that callers send are any texts.
-/

namespace Untangle

open Lib

inductive AuthOperation
  | createSession (principalId : Nat) (activeOrgId : Option Nat)
  | lookupSession (tokenHash : String)
  | touchSession (tokenHash : String) (idleWindowSeconds throttleSeconds : ℤ)
  | switchOrganisation (tokenHash : String) (targetOrgId : Nat)
  | revokeSession (tokenHash : String)
  | revokeAllSessions (tokenHash : String)
  | createOrganisation (tokenHash name : String)
  | mutateMembership (tokenHash : String) (targetPrincipalId : Nat) (newRoleCode newStatus : String)
  | createInvitation (tokenHash email roleCode : String)
  | acceptInvitation (tokenHash invitationTokenHash : String)
  | revokeInvitation (tokenHash : String) (invitationId : Nat)

/-- The database, the time of the last call, and how many tokens have been given out. -/
structure AuthState where
  db : AuthDatabase
  clock : Instant
  generated : Nat := 0

/-- A state with principals, and nothing else yet. -/
def AuthState.initial (principals : List Principal) (clock : Instant) : AuthState where
  db := { principals := principals }
  clock := clock

section Steps

variable (L : Letters) (tokens : Nat → String) (backend : Backend)

/-- The database after a call at a time, with a fresh token where one is needed. -/
def AuthDatabase.perform (db : AuthDatabase) (fresh : String) (now : Instant) :
    AuthOperation → Except AuthError AuthDatabase
  | .createSession principalId activeOrgId => db.createSession backend principalId activeOrgId fresh now
  | .lookupSession _ => .ok db
  | .touchSession tokenHash idleWindowSeconds throttleSeconds =>
    (db.touchSessionThrottled backend tokenHash now idleWindowSeconds throttleSeconds).map Prod.snd
  | .switchOrganisation tokenHash targetOrgId =>
    (db.switchOrganisation backend tokenHash targetOrgId fresh now).map Prod.snd
  | .revokeSession tokenHash => (db.revokeSession tokenHash now).map Prod.snd
  | .revokeAllSessions tokenHash => (db.revokeAllSessions tokenHash now).map Prod.snd
  | .createOrganisation tokenHash name => (db.createOrganisation tokenHash name now).map Prod.snd
  | .mutateMembership tokenHash targetPrincipalId newRoleCode newStatus =>
    (db.mutateMembership backend tokenHash targetPrincipalId newRoleCode newStatus now).map Prod.snd
  | .createInvitation tokenHash email roleCode =>
    (db.createInvitation L backend tokenHash email roleCode fresh now).map Prod.snd
  | .acceptInvitation tokenHash invitationTokenHash =>
    (db.acceptInvitation L backend tokenHash invitationTokenHash now).map Prod.snd
  | .revokeInvitation tokenHash invitationId =>
    (db.revokeInvitation backend tokenHash invitationId now).map Prod.snd

/-- One call, some time after the last one. -/
def AuthState.step (σ : AuthState) (call : Nat × AuthOperation) : AuthState where
  db := (σ.db.perform L backend (tokens σ.generated) (σ.clock + call.1) call.2).toOption.getD σ.db
  clock := σ.clock + call.1
  generated := σ.generated + 1

end Steps

end Untangle
