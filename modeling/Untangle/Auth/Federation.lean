import Untangle.Auth.Oidc
import Untangle.Lib.Runs

/-!
# `Auth.Federation` — sign-ins of many identities

The steps of a sign-in from its decoded claims on, each in a session of its own, while principals are deactivated and
activated again and issuers lose and regain their trust. The managers, the transactions and the claims are arbitrary.
-/

namespace Untangle

open Lib

/-- What happens to the identity tables. -/
inductive FederationAction
  | login (mgr : OidcManager) (tx : OidcAuthTransaction) (claims : Json)
  | setActive (principalId : Nat) (isActive : Bool)
  | setTrusted (issuer : String) (isActive : Bool)

/-- A sign-in that was answered with a principal. -/
structure Resolution where
  issuer : String
  subject : String
  principalId : Nat
deriving DecidableEq

section Steps

variable (lib : OidcLibraries) (backend : Backend)

/-- What a sign-in answers, and the database that it leaves. -/
def OidcDatabase.login (db : OidcDatabase) (mgr : OidcManager) (tx : OidcAuthTransaction) (claims : Json) :
    Except OidcError (Nat × String) × OidcDatabase :=
  (signIn lib backend mgr tx claims).close db

def OidcDatabase.setActive (db : OidcDatabase) (principalId : Nat) (isActive : Bool) : OidcDatabase :=
  { db with principals := db.principals.modify principalId fun p => { p with isActive := isActive } }

def OidcDatabase.setTrusted (db : OidcDatabase) (issuer : String) (isActive : Bool) : OidcDatabase :=
  { db with trustedIssuers := db.trustedIssuers.insert issuer isActive }

def OidcDatabase.federate (db : OidcDatabase) : FederationAction → OidcDatabase
  | .login mgr tx claims => (db.login lib backend mgr tx claims).2
  | .setActive principalId isActive => db.setActive principalId isActive
  | .setTrusted issuer isActive => db.setTrusted issuer isActive

/-- What a step resolves. -/
def OidcDatabase.resolution (db : OidcDatabase) : FederationAction → Option Resolution
  | .login mgr tx claims =>
    match claimedIdentity claims, (db.login lib backend mgr tx claims).1 with
    | .ok who, .ok (principalId, _) => some ⟨mgr.issuerUrl, who.subject, principalId⟩
    | _, _ => none
  | _ => none

/-- What a run resolves. -/
def resolutions : OidcDatabase → List FederationAction → List Resolution
  | _, [] => []
  | db, action :: actions =>
    (db.resolution lib backend action).toList ++ resolutions (db.federate lib backend action) actions

end Steps

end Untangle
