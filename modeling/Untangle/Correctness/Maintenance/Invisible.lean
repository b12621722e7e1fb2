import Mathlib.Data.List.NodupEquivFin
import Untangle.Correctness.Auth.Oidc
import Untangle.Correctness.Maintenance.Service

/-!
# `Correctness.Maintenance.Invisible` — a purge that the service does not notice

What a purge deletes is over for the service: a session past its retention is not live, and a transaction past its is
consumed or has expired. So the purges of a run leave its states as they are, for the service (`Unnoticed`), and every
call, sign-in and request is answered as in the run without them (`maintenance_invisible`).
-/

namespace Untangle

open Lib AuthDatabase

variable {U : Unicode} {bracketedHost : List Char → Bool} {hmac : String → String → String} {settings : WebSettings}
  {lib : OidcLibraries} {mgr : OidcManager} {tokens states : Nat → String} {backend : Backend} {now : Instant}

/-! ## Requests -/

namespace WebRequest

variable {r : WebRequest} {db db' : AuthDatabase}

/-- What is set of a request, but for the places of sessions. -/
def unnumbered (state : RequestState) : Option (String × SessionInfo) × Option TenantContext :=
  (state.session.map fun found => (found.1, found.2.unnumbered), state.tenantContext)

/-- A lookup that is not revoked, in both. -/
theorem lookup_cases (backend : Backend) (h : ServedAlike now db db') (hdb : Tidy now db) (hdb' : Tidy now db')
    (tokenHash : String) :
    (∃ info info', db.lookupSession backend tokenHash now = some info ∧
      db'.lookupSession backend tokenHash now = some info' ∧ info.isRevoked = false ∧ info'.isRevoked = false ∧
      info.unnumbered = info'.unnumbered) ∨
    ((∀ info, db.lookupSession backend tokenHash now = some info → info.isRevoked = true) ∧
      ∀ info, db'.lookupSession backend tokenHash now = some info → info.isRevoked = true) := by
  have hsame : ((db.lookupSession backend tokenHash now).filter fun info => !info.isRevoked).map
      SessionInfo.unnumbered = _ := h.lookupSession hdb hdb' tokenHash
  have hrevoked : ∀ {d : AuthDatabase}, (d.lookupSession backend tokenHash now).filter (fun info => !info.isRevoked) =
      none → ∀ info, d.lookupSession backend tokenHash now = some info → info.isRevoked = true := by
    intro d hnone info hlookup
    simpa using Option.filter_eq_none_iff.mp hnone info hlookup
  cases hfound : (db.lookupSession backend tokenHash now).filter fun info => !info.isRevoked with
  | none =>
      rw [hfound, Option.map_none, eq_comm, Option.map_eq_none_iff] at hsame
      exact Or.inr ⟨hrevoked hfound, hrevoked hsame⟩
  | some info =>
      rw [hfound, Option.map_some, eq_comm, Option.map_eq_some_iff] at hsame
      obtain ⟨info', hfound', hsame⟩ := hsame
      obtain ⟨hlookup, hinfo⟩ := Option.filter_eq_some_iff.mp hfound
      obtain ⟨hlookup', hinfo'⟩ := Option.filter_eq_some_iff.mp hfound'
      exact Or.inl ⟨info, info', hlookup, hlookup', by simpa using hinfo, by simpa using hinfo', hsame.symm⟩

/-- What is read of a session is not its place. -/
theorem contextOf_unnumbered (info : SessionInfo) : r.contextOf info.unnumbered = r.contextOf info := rfl

theorem authenticate_revoked (hashToken : String → String) (settings : WebSettings) (backend : Backend) (r : WebRequest)
    (h : ∀ rawToken info, r.sessionCookie = some rawToken →
      db.lookupSession backend (hashToken rawToken) now = some info → info.isRevoked = true) :
    r.authenticate hashToken settings backend now db = ({}, db) := by
  unfold authenticate
  split
  · rfl
  · rename_i rawToken hcookie
    split
    · rfl
    · split
      · rfl
      · rename_i info hlookup
        rw [if_pos (Or.inl (h rawToken info hcookie hlookup))]

theorem authenticate_alike (hashToken : String → String) (settings : WebSettings) (backend : Backend) (r : WebRequest)
    (h : ServedAlike now db db') (hdb : Tidy now db) (hdb' : Tidy now db') :
    unnumbered (r.authenticate hashToken settings backend now db).1 =
        unnumbered (r.authenticate hashToken settings backend now db').1 ∧
      ServedAlike now (r.authenticate hashToken settings backend now db).2
        (r.authenticate hashToken settings backend now db').2 := by
  cases hcookie : r.sessionCookie with
  | none =>
      have hrefused : ∀ d : AuthDatabase, r.authenticate hashToken settings backend now d = ({}, d) := fun d =>
        authenticate_revoked hashToken settings backend r fun rawToken info hsome => by
          rw [hcookie] at hsome
          cases hsome
      rw [hrefused, hrefused]
      exact ⟨rfl, h⟩
  | some rawToken =>
      rcases lookup_cases backend h hdb hdb' (hashToken rawToken) with
        ⟨info, info', hlookup, hlookup', hinfo, hinfo', hsame⟩ | ⟨hrevoked, hrevoked'⟩
      · have hstale : info.isStale = info'.isStale := by
          show info.unnumbered.isStale = info'.unnumbered.isStale
          rw [hsame]
        have hcontext : r.contextOf info = r.contextOf info' := by
          rw [← contextOf_unnumbered info, hsame, contextOf_unnumbered]
        unfold authenticate
        rw [hcookie]
        dsimp only
        rw [hlookup, hlookup']
        dsimp only
        rw [hinfo, hinfo', hstale]
        split
        · exact ⟨rfl, h⟩
        · split
          · exact ⟨rfl, h⟩
          · split
            · exact ⟨by simp only [unnumbered, Option.map_some, hsame], h⟩
            · have htouch : SameAnswer now (db.touchSessionThrottled backend (hashToken rawToken) now) _ :=
                h.touchSessionThrottled hdb hdb' (hashToken rawToken) idleTimeoutSeconds touchThrottleSeconds
              rcases htouch.cases with ⟨e, e', hx, hy⟩ | ⟨wrote, d, d', hx, hy, htouched⟩
              · rw [hx, hy]
                exact ⟨by simp only [unnumbered, Option.map_some, hsame], h⟩
              · rw [hx, hy]
                exact ⟨by simp only [unnumbered, Option.map_some, hsame, hcontext], htouched⟩
      · -- No session is found that may be used, so the request goes on without one.
        have hrefused : ∀ {d : AuthDatabase}, (∀ info, d.lookupSession backend (hashToken rawToken) now = some info →
            info.isRevoked = true) → r.authenticate hashToken settings backend now d = ({}, d) := by
          intro d hd
          refine authenticate_revoked hashToken settings backend r fun token info hsome hlookup => ?_
          obtain rfl := Option.some.inj (hcookie.symm.trans hsome)
          exact hd info hlookup
        rw [hrefused hrevoked, hrefused hrevoked']
        exact ⟨rfl, h⟩

/-- CSRF and the guard of a tenant's routes look at what is set, and not at places. -/
theorem csrf_unnumbered {session session' : Option (String × SessionInfo)}
    (h : session.map (fun found => (found.1, found.2.unnumbered)) =
      session'.map fun found => (found.1, found.2.unnumbered)) :
    r.csrf U bracketedHost lib.hashToken hmac settings session =
      r.csrf U bracketedHost lib.hashToken hmac settings session' := by
  have hfst : session.map Prod.fst = session'.map Prod.fst := by
    have hfirst := congrArg (Option.map Prod.fst) h
    rwa [Option.map_map, Option.map_map] at hfirst
  have hsome : session.isSome = session'.isSome := by
    rw [← Option.isSome_map, hfst, Option.isSome_map]
  unfold csrf checkCsrfToken
  rw [hfst, hsome]

theorem guardTenant_unnumbered {state state' : RequestState} (h : unnumbered state = unnumbered state') :
    r.guardTenant state = r.guardTenant state' := by
  obtain ⟨hsession, hcontext⟩ := Prod.mk.inj h
  unfold guardTenant
  rw [hcontext]
  split
  · rcases map_eq_map_cases hsession with ⟨hs, hs'⟩ | ⟨found, found', hs, hs', hsame⟩
    · rw [hs, hs']
    · have hactive : found.2.activeOrganisationId = found'.2.activeOrganisationId := by
        show found.2.unnumbered.activeOrganisationId = found'.2.unnumbered.activeOrganisationId
        rw [(Prod.mk.inj hsame).2]
      rw [hs, hs']
      dsimp only
      rw [hactive]
  · rfl

theorem serve_alike (h : ServedAlike now db db') (hdb : Tidy now db) (hdb' : Tidy now db') :
    (r.serve U bracketedHost lib.hashToken hmac settings backend now db).map unnumbered =
      (r.serve U bracketedHost lib.hashToken hmac settings backend now db').map unnumbered := by
  obtain ⟨hstate, -⟩ := authenticate_alike lib.hashToken settings backend r h hdb hdb'
  unfold serve
  dsimp only
  rw [csrf_unnumbered (Prod.mk.inj hstate).1, guardTenant_unnumbered hstate]
  split
  · rfl
  · split
    · rfl
    · exact congrArg Except.ok hstate

end WebRequest

/-! ## Sign-ins -/

/-- The same for the service, with the sign-ins that are under way. -/
structure OidcAlike (now : Instant) (db db' : OidcDatabase) : Prop where
  identity : ServedAlike now db.toAuthDatabase db'.toAuthDatabase
  trustedIssuers : db.trustedIssuers = db'.trustedIssuers
  identities : db.identities = db'.identities
  transactions : ∀ stateHash, db.openTransaction stateHash now = db'.openTransaction stateHash now

theorem OidcAlike.refl (now : Instant) (db : OidcDatabase) : OidcAlike now db db :=
  ⟨ServedAlike.refl now _, rfl, rfl, fun _ => rfl⟩

theorem OidcAlike.trans {db db' db'' : OidcDatabase} (h : OidcAlike now db db') (h' : OidcAlike now db' db'') :
    OidcAlike now db db'' :=
  ⟨h.identity.trans h'.identity, h.trustedIssuers.trans h'.trustedIssuers, h.identities.trans h'.identities,
    fun stateHash => (h.transactions stateHash).trans (h'.transactions stateHash)⟩

theorem OidcAlike.symm {db db' : OidcDatabase} (h : OidcAlike now db db') : OidcAlike now db' db :=
  ⟨h.identity.symm, h.trustedIssuers.symm, h.identities.symm, fun stateHash => (h.transactions stateHash).symm⟩

/-- What is open was open before. -/
theorem openTransaction_later {now later : Instant} (hle : now ≤ later) (db : OidcDatabase) (stateHash : String) :
    db.openTransaction stateHash later = (db.openTransaction stateHash now).filter fun tx => later < tx.expiresAt := by
  unfold OidcDatabase.openTransaction
  rw [Option.filter_filter]
  congr 1
  funext tx
  by_cases hlater : later < tx.expiresAt
  · have hnow := hle.trans_lt hlater
    simp [hlater, hnow]
  · simp [hlater]

theorem OidcAlike.mono {now later : Instant} (hle : now ≤ later) {db db' : OidcDatabase} (h : OidcAlike now db db') :
    OidcAlike later db db' :=
  ⟨h.identity.mono hle, h.trustedIssuers, h.identities, fun stateHash => by
    rw [openTransaction_later hle, openTransaction_later hle, h.transactions]⟩

/-- What a sign-in keeps: the sessions are what they are, and the hash that is drawn for it is of both or of neither. -/
structure SignInAlike (now : Instant) (drawn : String) (given : String → Prop) (rows rows' : List SessionRecord)
    (db db' : OidcDatabase) : Prop where
  alike : OidcAlike now db db'
  drawn : (db.transactions.get? drawn).isSome = (db'.transactions.get? drawn).isSome
  sessions : db.sessions = rows ∧ db'.sessions = rows'
  given : (∀ k ∈ db.transactions.keys, given k) ∧ ∀ k ∈ db'.transactions.keys, given k

section SignIns

variable {drawn : String} {given : String → Prop} {rows rows' : List SessionRecord} {db db' : OidcDatabase}

/-- A new transaction, or a consumed one, in both. -/
theorem SignInAlike.insert (h : SignInAlike now drawn given rows rows' db db') {stateHash : String}
    (hgiven : given stateHash) (tx : OidcAuthTransaction) :
    SignInAlike now drawn given rows rows' { db with transactions := db.transactions.insert stateHash tx }
      { db' with transactions := db'.transactions.insert stateHash tx } where
  alike :=
    { identity := h.alike.identity
      trustedIssuers := h.alike.trustedIssuers
      identities := h.alike.identities
      transactions := fun k => by
        have hold := h.alike.transactions k
        unfold OidcDatabase.openTransaction at hold ⊢
        rw [Dict.get?_insert, Dict.get?_insert]
        split
        · rfl
        · exact hold }
  drawn := by
    rw [Dict.get?_insert, Dict.get?_insert]
    split
    · rfl
    · exact h.drawn
  sessions := h.sessions
  given := by
    refine ⟨fun k hk => ?_, fun k hk => ?_⟩
    · rcases Dict.mem_keys_insert.mp hk with rfl | hk
      · exact hgiven
      · exact h.given.1 k hk
    · rcases Dict.mem_keys_insert.mp hk with rfl | hk
      · exact hgiven
      · exact h.given.2 k hk

/-- New principals and identities, in both. -/
theorem SignInAlike.people (h : SignInAlike now drawn given rows rows' db db') (principals : List Principal)
    (identities : Dict (String × String) FederatedIdentity) :
    SignInAlike now drawn given rows rows' { db with principals := principals, identities := identities }
      { db' with principals := principals, identities := identities } where
  alike :=
    { identity := { h.alike.identity with principals := rfl }
      trustedIssuers := h.alike.trustedIssuers
      identities := rfl
      transactions := h.alike.transactions }
  drawn := h.drawn
  sessions := h.sessions
  given := h.given

theorem coupled_recordSecurityEvent (event : SecurityEvent) :
    Work.Coupled (SignInAlike now drawn given rows rows') (recordSecurityEvent lib backend event) := by
  refine Work.Coupled.execute fun s t h => SameEnd.cases (SameEnd.bind _ fun _ => ?_)
  exact SameEnd.ok ()
    ⟨⟨h.alike.identity, h.alike.trustedIssuers, h.alike.identities, h.alike.transactions⟩, h.drawn, h.sessions, h.given⟩

theorem coupled_failCommitted {α : Type} (event : SecurityEvent) (e : OidcError) :
    Work.Coupled (SignInAlike now drawn given rows rows')
      (failCommitted lib backend event e : Work OidcDatabase OidcError α) :=
  Work.Coupled.bind (coupled_recordSecurityEvent event) fun _ =>
    Work.Coupled.bind Work.Coupled.commit fun _ => Work.Coupled.raise e

theorem coupled_consumeTransaction (stateHash : String) :
    Work.Coupled (SignInAlike now drawn given rows rows') (consumeTransaction stateHash now) := by
  refine Work.Coupled.execute fun s t h => SameEnd.cases ?_
  have hopen := h.alike.transactions stateHash
  cases htx : s.openTransaction stateHash now with
  | none =>
      rw [htx] at hopen
      rw [← hopen]
      exact SameEnd.ok none h
  | some tx =>
      rw [htx] at hopen
      rw [← hopen]
      have hkey : given stateHash :=
        h.given.1 stateHash (Dict.mem_keys_of_get? (Option.filter_eq_some_iff.mp htx).1)
      exact SameEnd.ok (some tx) (h.insert hkey _)

/-- What a sign-in writes of a known principal, and of a new one. -/
theorem SignInAlike.refresh (h : SignInAlike now drawn given rows rows' db db')
    (issuer subject normEmail displayName : String) (fed : FederatedIdentity) (p : Principal) :
    SignInAlike now drawn given rows rows' (db.refresh issuer subject normEmail displayName fed p)
      (db'.refresh issuer subject normEmail displayName fed p) := by
  unfold OidcDatabase.refresh
  rw [h.alike.identities, h.alike.identity.principals]
  exact h.people _ _

theorem SignInAlike.register (h : SignInAlike now drawn given rows rows' db db')
    (issuer subject normEmail displayName : String) :
    SignInAlike now drawn given rows rows' (db.register issuer subject normEmail displayName)
      (db'.register issuer subject normEmail displayName) := by
  unfold OidcDatabase.register
  rw [h.alike.identities, h.alike.identity.principals]
  exact h.people _ _

theorem resolveFederatedIdentity_same (h : SignInAlike now drawn given rows rows' db db') (who : ClaimedIdentity) :
    SameEnd (SignInAlike now drawn given rows rows') (resolveFederatedIdentity lib mgr who db)
      (resolveFederatedIdentity lib mgr who db') := by
  have hfederated : ∀ issuer subject, db.federated issuer subject = db'.federated issuer subject := by
    intro issuer subject
    unfold OidcDatabase.federated
    rw [h.alike.identities, h.alike.identity.principals]
  unfold resolveFederatedIdentity
  rw [h.alike.trustedIssuers]
  refine SameEnd.bind _ fun email => SameEnd.bind _ fun displayName => SameEnd.bind _ fun subject =>
    SameEnd.bind _ fun norm => SameEnd.bind _ fun _ => ?_
  rw [hfederated]
  cases db'.federated mgr.issuerUrl subject with
  | some found =>
      refine SameEnd.bind _ fun _ => SameEnd.bind _ fun displayName => ?_
      exact SameEnd.ok _ (h.refresh _ _ _ _ _ _)
  | none =>
      dsimp only
      rw [h.alike.identity.principals, h.alike.identities]
      refine SameEnd.bind _ fun _ => SameEnd.bind _ fun displayName => SameEnd.bind _ fun subject =>
        SameEnd.bind _ fun _ => ?_
      exact SameEnd.ok _ (h.register _ _ _ _)

theorem coupled_resolvePostgres (who : ClaimedIdentity) :
    Work.Coupled (SignInAlike now drawn given rows rows') (resolvePostgres lib backend mgr who) := by
  refine Work.Coupled.handle
    (Work.Coupled.execute fun s t h => SameEnd.cases (resolveFederatedIdentity_same h who)) fun e => ?_
  refine Work.Coupled.bind Work.Coupled.rollback fun _ => ?_
  dsimp only
  split
  · split
    · exact coupled_failCommitted _ _
    · exact Work.Coupled.raise _
  · exact Work.Coupled.raise _

theorem coupled_resolveSqlite (who : ClaimedIdentity) :
    Work.Coupled (SignInAlike now drawn given rows rows') (resolveSqlite lib backend mgr who) := by
  refine Work.Coupled.bind (Work.Coupled.lift _) fun email => Work.Coupled.read ?_ fun db => ?_
  · intro s t h
    rw [h.alike.trustedIssuers, h.alike.identities, h.alike.identity.principals]
  · refine Work.Coupled.bind (Work.Coupled.lift _) fun _ => ?_
    split
    · split
      · refine Work.Coupled.execute fun s t h => SameEnd.cases (SameEnd.bind _ fun displayName => ?_)
        exact SameEnd.ok _ (h.refresh _ _ _ _ _ _)
      · exact Work.Coupled.raise _
    · split
      · exact coupled_failCommitted _ _
      · refine Work.Coupled.execute fun s t h => SameEnd.cases (SameEnd.bind _ fun displayName => ?_)
        rw [h.alike.identity.principals]
        exact SameEnd.ok _ (h.register _ _ _ _)

theorem coupled_signIn (tx : OidcAuthTransaction) (claims : Json) :
    Work.Coupled (SignInAlike now drawn given rows rows') (signIn lib backend mgr tx claims) := by
  refine Work.Coupled.bind (Work.Coupled.lift _) fun _ =>
    Work.Coupled.bind (Work.Coupled.whenever (coupled_failCommitted _ _)) fun _ =>
    Work.Coupled.bind (Work.Coupled.lift _) fun who => Work.Coupled.bind ?_ fun principalId =>
    Work.Coupled.bind (coupled_recordSecurityEvent _) fun _ => Work.Coupled.bind Work.Coupled.commit fun _ =>
    Work.Coupled.pure _
  cases backend with
  | postgres => exact coupled_resolvePostgres who
  | sqlite => exact coupled_resolveSqlite who

variable (mgr backend) in
theorem coupled_processCallback (answers : ProviderAnswers) (code state : String) :
    Work.Coupled (SignInAlike now drawn given rows rows') (processCallback lib backend mgr answers code state now) := by
  refine Work.Coupled.bind (coupled_consumeTransaction _) fun consumed => ?_
  cases consumed with
  | none => exact coupled_failCommitted _ _
  | some tx =>
      refine Work.Coupled.bind (Work.Coupled.lift _) fun response =>
        Work.Coupled.bind (Work.Coupled.whenever (coupled_failCommitted _ _)) fun _ =>
        Work.Coupled.bind (Work.Coupled.lift _) fun idToken =>
        Work.Coupled.bind (Work.Coupled.lift _) fun keySet => ?_
      split
      · exact coupled_failCommitted _ _
      · exact coupled_signIn _ _

variable (mgr backend) in
theorem coupled_createAuthorizationFlow (answers : ProviderAnswers) (rawState rawNonce codeVerifier returnTo : String)
    (hgiven : given (lib.hashToken rawState)) :
    Work.Coupled (SignInAlike now (lib.hashToken rawState) given rows rows')
      (createAuthorizationFlow lib backend mgr answers rawState rawNonce codeVerifier returnTo now) := by
  refine Work.Coupled.bind (Work.Coupled.lift _) fun metadata => Work.Coupled.bind (Work.Coupled.lift _) fun endpoint =>
    Work.Coupled.bind (Work.Coupled.lift _) fun _ => Work.Coupled.bind ?_ fun _ =>
    Work.Coupled.bind (coupled_recordSecurityEvent _) fun _ => Work.Coupled.bind Work.Coupled.commit fun _ =>
    Work.Coupled.pure _
  refine Work.Coupled.execute fun s t h => SameEnd.cases ?_
  rw [h.drawn]
  exact SameEnd.bind _ fun _ => SameEnd.ok () (h.insert hgiven _)

end SignIns

/-! ## What every state keeps -/

structure KeptState (lib : OidcLibraries) (tokens states : Nat → String) (σ : MaintainedState) : Prop where
  tidy : Tidy σ.clock σ.db.toAuthDatabase
  /-- Tokens and states come from the source. -/
  given : ∀ s ∈ σ.db.sessions, ∃ n < σ.generated, s.val.sessionTokenHash = tokens n
  drawn : ∀ k ∈ σ.db.transactions.keys, ∃ n < σ.generated, k = lib.hashToken (states n)

section Keeping

variable {σ : MaintainedState} {db db' : AuthDatabase} {L : Letters} {fresh : String} {op : AuthOperation}

theorem KeptState.token_ne (h : KeptState lib tokens states σ) (htokens : Function.Injective tokens) :
    ∀ s ∈ σ.db.sessions, s.val.sessionTokenHash ≠ tokens σ.generated := by
  intro s hs hsame
  obtain ⟨n, hn, htoken⟩ := h.given s hs
  have heq := htokens (htoken.symm.trans hsame)
  omega

theorem KeptState.state_new (h : KeptState lib tokens states σ)
    (hstates : Function.Injective fun n => lib.hashToken (states n)) :
    σ.db.transactions.get? (lib.hashToken (states σ.generated)) = none := by
  rw [Dict.get?_eq_none]
  intro hmem
  obtain ⟨n, hn, hsame⟩ := h.drawn _ hmem
  have heq := hstates hsame
  omega

theorem map_snd_map {ε α β δ : Type} (x : Except ε (α × δ)) (f : α → β) :
    (x.map fun r => (f r.1, r.2)).map Prod.snd = x.map Prod.snd := by
  cases x with
  | error e => rfl
  | ok r => rfl

/-- The calls are those of the identity service. -/
theorem call_perform : (db.call L backend fresh now op).map Prod.snd = db.perform L backend fresh now op := by
  cases op with
  | createSession principalId activeOrgId =>
      unfold AuthDatabase.call AuthDatabase.perform
      dsimp only
      cases db.createSession backend principalId activeOrgId fresh now with
      | error e => rfl
      | ok d => rfl
  | lookupSession tokenHash => rfl
  | touchSession tokenHash idleWindowSeconds throttleSeconds => exact map_snd_map _ ServiceAnswer.wrote
  | switchOrganisation tokenHash targetOrgId => exact map_snd_map _ ServiceAnswer.switched
  | revokeSession tokenHash => exact map_snd_map _ fun _ => ServiceAnswer.done
  | revokeAllSessions tokenHash => exact map_snd_map _ fun _ => ServiceAnswer.done
  | createOrganisation tokenHash name => exact map_snd_map _ ServiceAnswer.organisation
  | mutateMembership tokenHash targetPrincipalId newRoleCode newStatus => exact map_snd_map _ ServiceAnswer.membership
  | createInvitation tokenHash email roleCode => exact map_snd_map _ ServiceAnswer.invitation
  | acceptInvitation tokenHash invitationTokenHash =>
      exact map_snd_map _ fun a : Nat × Role => ServiceAnswer.joined a.1 a.2
  | revokeInvitation tokenHash invitationId => exact map_snd_map _ ServiceAnswer.wrote

/-- A session is created at the time of a call, and its row keeps that time. -/
theorem born_of_perform (h : db.perform L backend fresh now op = .ok db')
    (hborn : ∀ s ∈ db.sessions, s.val.createdAt ≤ now) : ∀ s ∈ db'.sessions, s.val.createdAt ≤ now := by
  intro s hs
  -- Only a creation adds a row; the other calls keep the time of each.
  by_cases hcreates : ∃ principalId activeOrgId, op = .createSession principalId activeOrgId
  · obtain ⟨principalId, activeOrgId, rfl⟩ := hcreates
    obtain ⟨active, -, h⟩ := bind_eq_ok.mp h
    obtain ⟨-, h⟩ := bind_unit_eq_ok.mp h
    obtain ⟨-, h⟩ := bind_unit_eq_ok.mp h
    obtain ⟨row, hrow, h⟩ := bind_eq_ok.mp h
    obtain rfl := Except.ok.inj h
    rcases List.mem_append.mp hs with hs | hs
    · exact hborn s hs
    · obtain rfl := List.mem_singleton.mp hs
      rw [storeSession_eq_ok.mp hrow]
  · obtain ⟨i, hi⟩ := List.mem_iff_getElem?.mp hs
    rcases (AuthDatabase.perform_effect h).row_of hi with ⟨s₀, hs₀, hstep⟩ | ⟨-, hcreated⟩
    · have hold := hborn s₀ (List.mem_of_getElem? hs₀)
      cases hstep with
      | same h => rw [h]; exact hold
      | touched _ _ h => rw [h]; exact hold
      | rebound _ _ _ _ h => rw [h]; exact hold
      | revoked _ h => rw [h]; exact hold
    · obtain ⟨activeOrgId, hcall⟩ := hcreated.call
      exact absurd ⟨_, activeOrgId, hcall⟩ hcreates

/-- Calls keep the sessions tidy. -/
theorem KeptState.perform (h : KeptState lib tokens states σ) (htokens : Function.Injective tokens) {d : AuthDatabase}
    (hperform : σ.db.toAuthDatabase.perform L backend (tokens σ.generated) σ.clock op = .ok d) :
    KeptState lib tokens states
      { σ with db := { σ.db with toAuthDatabase := d }, generated := σ.generated + 1 } where
  tidy :=
    ⟨(AuthDatabase.perform_effect hperform).distinct (h.token_ne htokens) h.tidy.distinct,
      born_of_perform hperform h.tidy.born⟩
  given := by
    intro s hs
    rcases (AuthDatabase.perform_effect hperform).token_of hs with hfresh | ⟨s₀, hs₀, hsame⟩
    · exact ⟨_, Nat.lt_succ_self _, hfresh⟩
    · obtain ⟨n, hn, htoken⟩ := h.given s₀ hs₀
      exact ⟨n, Nat.lt_succ_of_lt hn, hsame.trans htoken⟩
  drawn := by
    intro k hk
    obtain ⟨n, hn, hsame⟩ := h.drawn k hk
    exact ⟨n, Nat.lt_succ_of_lt hn, hsame⟩

theorem KeptState.idle (h : KeptState lib tokens states σ) :
    KeptState lib tokens states { σ with generated := σ.generated + 1 } where
  tidy := h.tidy
  given := by
    intro s hs
    obtain ⟨n, hn, htoken⟩ := h.given s hs
    exact ⟨n, Nat.lt_succ_of_lt hn, htoken⟩
  drawn := by
    intro k hk
    obtain ⟨n, hn, hsame⟩ := h.drawn k hk
    exact ⟨n, Nat.lt_succ_of_lt hn, hsame⟩

/-- A request touches a session, or leaves the database as it is. -/
theorem authenticate_touches (r : WebRequest) (hashToken : String → String) (settings : WebSettings) (backend : Backend)
    (now : Instant) (db : AuthDatabase) :
    (r.authenticate hashToken settings backend now db).2 = db ∨ ∃ tokenHash wrote,
      db.touchSessionThrottled backend tokenHash now =
        .ok (wrote, (r.authenticate hashToken settings backend now db).2) := by
  unfold WebRequest.authenticate
  split
  · exact Or.inl rfl
  · rename_i rawToken hcookie
    split
    · exact Or.inl rfl
    · split
      · exact Or.inl rfl
      · split
        · exact Or.inl rfl
        · split
          · exact Or.inl rfl
          · split
            · exact Or.inl rfl
            · rename_i wrote d htouched
              exact Or.inr ⟨_, wrote, htouched⟩

theorem KeptState.authenticate (h : KeptState lib tokens states σ) (htokens : Function.Injective tokens)
    (r : WebRequest) :
    KeptState lib tokens states
      { σ with
        db := { σ.db with
          toAuthDatabase := (r.authenticate lib.hashToken settings backend σ.clock σ.db.toAuthDatabase).2 }
        generated := σ.generated + 1 } := by
  rcases authenticate_touches r lib.hashToken settings backend σ.clock σ.db.toAuthDatabase with
    hsame | ⟨tokenHash, wrote, htouched⟩
  · rw [hsame]
    exact h.idle
  · have hperform : σ.db.toAuthDatabase.perform lib.letters backend (tokens σ.generated) σ.clock
        (.touchSession tokenHash idleTimeoutSeconds touchThrottleSeconds) =
        .ok (r.authenticate lib.hashToken settings backend σ.clock σ.db.toAuthDatabase).2 := by
      unfold AuthDatabase.perform
      dsimp only
      rw [htouched]
      rfl
    exact h.perform htokens hperform

/-- A sign-in leaves the sessions as they are. -/
theorem KeptState.signedIn (h : KeptState lib tokens states σ) {d : OidcDatabase}
    (hsessions : d.sessions = σ.db.sessions)
    (hdrawn : ∀ k ∈ d.transactions.keys, ∃ n < σ.generated + 1, k = lib.hashToken (states n)) :
    KeptState lib tokens states { σ with db := σ.db.signedIn σ.clock d, generated := σ.generated + 1 } where
  tidy := by
    refine ⟨?_, ?_⟩
    · intro i j s t hs ht htoken
      exact h.tidy.distinct i j s t (hsessions ▸ hs) (hsessions ▸ ht) htoken
    · intro s hs
      exact h.tidy.born s (hsessions ▸ hs)
  given := by
    intro s hs
    obtain ⟨n, hn, htoken⟩ := h.given s (hsessions ▸ hs)
    exact ⟨n, Nat.lt_succ_of_lt hn, htoken⟩
  drawn := hdrawn

end Keeping

/-! ## The purge -/

section Purge

variable {db : RetainedDatabase} {r : Retentions}

theorem settled_redact {cutoff : Instant} (i : InvitationRecord) :
    (if i.val.redactable cutoff then i.redact else i).settled = i.settled := by
  split
  · rename_i hredactable
    unfold OrganisationInvitation.redactable at hredactable
    rw [Bool.and_eq_true, Bool.and_eq_true, Bool.or_eq_true, decide_eq_true_eq, decide_eq_true_eq] at hredactable
    have hsettled : i.val.status ≠ .pending := by
      rcases hredactable.1.1 with hstatus | hstatus
      · rw [hstatus]; decide
      · rw [hstatus]; decide
    unfold InvitationRecord.settled
    rw [if_neg hsettled, if_neg (show i.redact.val.status ≠ .pending from hsettled)]
    rfl
  · rfl

/-- What is past its retention is not live. -/
theorem not_live_of_purgeable {s : UserSession} {retentionDays : ℤ} (hpos : 1 ≤ retentionDays)
    (h : s.purgeable (now - days retentionDays) = true) : s.live now = false := by
  unfold UserSession.purgeable at h
  rw [Bool.or_eq_true, decide_eq_true_eq] at h
  rw [not_live_iff]
  rcases h with hrevoked | hexpired
  · obtain ⟨revoked, hsome, -⟩ := (Option.any_eq_true _ _).mp hrevoked
    exact Or.inl (by rw [hsome]; rfl)
  · refine Or.inr (Or.inl ?_)
    have hdays : 0 ≤ days retentionDays := by
      unfold days seconds
      omega
    exact hexpired.le.trans (sub_le_self now hdays)

/-- What is past its retention is consumed, or has expired. -/
theorem not_open_of_purgeable {tx : OidcAuthTransaction} {retentionHours : ℤ} (hpos : 1 ≤ retentionHours)
    (h : tx.purgeable (now - hours retentionHours) = true) : (tx.consumedAt.isNone && now < tx.expiresAt) = false := by
  unfold OidcAuthTransaction.purgeable at h
  rw [Bool.or_eq_true, decide_eq_true_eq] at h
  rw [Bool.and_eq_false_iff, Option.isNone_eq_false_iff, decide_eq_false_iff_not]
  rcases h with hcreated | hconsumed
  · -- A transaction expires ten minutes after it was created, and the shortest retention is an hour.
    refine Or.inr fun hnow => ?_
    have hhours : seconds 600 ≤ hours retentionHours := by
      unfold hours seconds
      omega
    exact lt_asymm hcreated ((sub_le_sub_left hhours now).trans_lt (sub_lt_sub_right hnow (seconds 600)))
  · exact Or.inl hconsumed

theorem purge_alike (db : RetainedDatabase) (r : Retentions) (now : Instant) :
    OidcAlike now db.toOidcDatabase (db.purge r now).2.toOidcDatabase where
  identity :=
    { principals := rfl
      organisations := rfl
      memberships := rfl
      sessions := by
        intro s hlive
        show s ∈ db.sessions ↔ s ∈ db.sessions.filter fun s => !s.val.purgeable (now - days r.sessionsDays)
        rw [List.mem_filter, Bool.not_eq_true']
        refine (and_iff_left_of_imp fun _ => ?_).symm
        refine Bool.eq_false_iff.mpr fun hpurgeable => ?_
        rw [not_live_of_purgeable r.sessions_pos hpurgeable] at hlive
        cases hlive
      invitations := by
        show db.invitations.map InvitationRecord.settled =
          (db.invitations.map fun i => if i.val.redactable (now - days r.invitesDays) then i.redact else i).map
            InvitationRecord.settled
        rw [List.map_map]
        exact List.map_congr_left fun i _ => (settled_redact i).symm }
  trustedIssuers := rfl
  identities := rfl
  transactions := by
    intro stateHash
    show (db.transactions.get? stateHash).filter (fun tx => tx.consumedAt.isNone && now < tx.expiresAt) =
      ((db.transactions.filter fun _ tx => !tx.purgeable (now - hours r.oidcHours)).get? stateHash).filter
        fun tx => tx.consumedAt.isNone && now < tx.expiresAt
    rw [Dict.get?_filter, Option.filter_filter]
    congr 1
    funext tx
    cases hpurgeable : tx.purgeable (now - hours r.oidcHours) with
    | false => simp
    | true => simp [not_open_of_purgeable r.oidc_pos hpurgeable]

/-- No two of fewer sessions have one token either. -/
theorem DistinctTokens.sublist {db : AuthDatabase} (h : DistinctTokens db) {rows : List SessionRecord}
    (hsub : rows.Sublist db.sessions) : DistinctTokens { db with sessions := rows } := by
  obtain ⟨f, hf⟩ := List.sublist_iff_exists_orderEmbedding_getElem?_eq.mp hsub
  intro i j s t hs ht htoken
  exact f.injective (h (f i) (f j) s t ((hf i).symm.trans hs) ((hf j).symm.trans ht) htoken)

theorem KeptState.purge {σ : MaintainedState} (h : KeptState lib tokens states σ) (r : Retentions) :
    KeptState lib tokens states { σ with db := (σ.db.purge r σ.clock).2 } where
  tidy := by
    have hsub : ∀ s, s ∈ (σ.db.purge r σ.clock).2.sessions → s ∈ σ.db.sessions := fun s hs => (List.mem_filter.mp hs).1
    refine ⟨?_, fun s hs => h.tidy.born s (hsub s hs)⟩
    exact DistinctTokens.sublist h.tidy.distinct List.filter_sublist
  given := fun s hs => h.given s (List.mem_filter.mp hs).1
  drawn := by
    intro k hk
    obtain ⟨tx, htx⟩ := Dict.mem_keys_iff.mp hk
    have htx' : (σ.db.transactions.filter fun _ tx => !tx.purgeable (σ.clock - hours r.oidcHours)).get? k = some tx :=
      htx
    rw [Dict.get?_filter] at htx'
    exact h.drawn k (Dict.mem_keys_of_get? (Option.filter_eq_some_iff.mp htx').1)

/-- Nothing is left that is past its retention. -/
structure Purged (r : Retentions) (now : Instant) (db : RetainedDatabase) : Prop where
  events : ∀ event ∈ db.datedEvents, now - days r.secEventsDays ≤ event.2
  transactions : ∀ stateHash tx, db.transactions.get? stateHash = some tx →
    tx.purgeable (now - hours r.oidcHours) = false
  sessions : ∀ s ∈ db.sessions, s.val.purgeable (now - days r.sessionsDays) = false
  invitations : ∀ i ∈ db.invitations, i.val.redactable (now - days r.invitesDays) = false

theorem purged_purge (db : RetainedDatabase) (r : Retentions) (now : Instant) : Purged r now (db.purge r now).2 where
  events := by
    intro event hevent
    have hkept : event ∈ db.datedEvents.filter fun event => now - days r.secEventsDays ≤ event.2 := by
      rwa [show (db.purge r now).2.datedEvents = List.zip (List.map Prod.fst _) (List.map Prod.snd _) from rfl,
        ← List.unzip_fst, ← List.unzip_snd, List.zip_unzip] at hevent
    simpa using (List.mem_filter.mp hkept).2
  transactions := by
    intro stateHash tx htx
    have hkept : (db.transactions.filter fun _ tx => !tx.purgeable (now - hours r.oidcHours)).get? stateHash =
        some tx := htx
    rw [Dict.get?_filter] at hkept
    simpa using (Option.filter_eq_some_iff.mp hkept).2
  sessions := by
    intro s hs
    simpa using (List.mem_filter.mp hs).2
  invitations := by
    intro i hi
    obtain ⟨old, -, rfl⟩ := List.mem_map.mp hi
    split
    · simp [OrganisationInvitation.redactable, InvitationRecord.redact]
    · rename_i hkept
      exact Bool.eq_false_iff.mpr hkept

/-- A purge that is neither refused nor skipped leaves nothing past its retention. -/
theorem purged_runMaintenancePurge (db : RetainedDatabase) {args : RetentionArguments} (hargs : args.validate = .ok r)
    {lockHeld : Bool} (hlock : ¬ (backend = .postgres ∧ lockHeld = true)) :
    Purged r now (db.runMaintenancePurge backend args lockHeld now).2 := by
  unfold RetainedDatabase.runMaintenancePurge
  rw [hargs]
  dsimp only
  rw [if_neg hlock]
  exact purged_purge db r now

theorem KeptState.runPurge {σ : MaintainedState} (h : KeptState lib tokens states σ) (backend : Backend)
    (args : RetentionArguments) (lockHeld : Bool) :
    OidcAlike σ.clock σ.db.toOidcDatabase (σ.db.runMaintenancePurge backend args lockHeld σ.clock).2.toOidcDatabase ∧
      KeptState lib tokens states { σ with db := (σ.db.runMaintenancePurge backend args lockHeld σ.clock).2 } := by
  unfold RetainedDatabase.runMaintenancePurge
  cases args.validate with
  | error message => exact ⟨OidcAlike.refl _ _, h⟩
  | ok r =>
      dsimp only
      split
      · exact ⟨OidcAlike.refl _ _, h⟩
      · exact ⟨purge_alike _ _ _, h.purge r⟩

end Purge

/-! ## Runs -/

/-- States that the service does not tell apart. -/
structure Unnoticed (lib : OidcLibraries) (tokens states : Nat → String) (σ τ : MaintainedState) : Prop where
  clock : σ.clock = τ.clock
  generated : σ.generated = τ.generated
  alike : OidcAlike σ.clock σ.db.toOidcDatabase τ.db.toOidcDatabase
  left : KeptState lib tokens states σ
  right : KeptState lib tokens states τ

section Runs

variable {σ τ : MaintainedState}

theorem Unnoticed.wait (h : Unnoticed lib tokens states σ τ) (duration : Nat) :
    Unnoticed lib tokens states { σ with clock := σ.clock + duration } { τ with clock := τ.clock + duration } := by
  have hlater : ∀ t : Instant, t ≤ t + duration := fun t => le_add_of_nonneg_right (Int.natCast_nonneg duration)
  exact
    { clock := by rw [h.clock]
      generated := h.generated
      alike := h.alike.mono (hlater _)
      left := ⟨h.left.tidy.mono (hlater _), h.left.given, h.left.drawn⟩
      right := ⟨h.right.tidy.mono (hlater _), h.right.given, h.right.drawn⟩ }

theorem Unnoticed.purge (h : Unnoticed lib tokens states σ τ) (backend : Backend) (args : RetentionArguments)
    (lockHeld : Bool) :
    Unnoticed lib tokens states { σ with db := (σ.db.runMaintenancePurge backend args lockHeld σ.clock).2 } τ := by
  obtain ⟨halike, hkept⟩ := h.left.runPurge backend args lockHeld
  exact ⟨h.clock, h.generated, halike.symm.trans h.alike, hkept, h.right⟩

/-- A sign-in that does the same on databases that are alike. -/
theorem Unnoticed.signIn (h : Unnoticed lib tokens states σ τ)
    (hstates : Function.Injective fun n => lib.hashToken (states n)) {α : Type} {flow : Work OidcDatabase OidcError α}
    (hflow : Work.Coupled (SignInAlike σ.clock (lib.hashToken (states σ.generated))
      (fun k => ∃ n < σ.generated + 1, k = lib.hashToken (states n)) σ.db.sessions τ.db.sessions) flow) :
    (flow.close σ.db.toOidcDatabase).1 = (flow.close τ.db.toOidcDatabase).1 ∧
      Unnoticed lib tokens states
        { σ with
          db := σ.db.signedIn σ.clock (flow.close σ.db.toOidcDatabase).2
          generated := σ.generated + 1 }
        { τ with
          db := τ.db.signedIn τ.clock (flow.close τ.db.toOidcDatabase).2
          generated := τ.generated + 1 } := by
  have hdrawn : ∀ {ρ : MaintainedState}, KeptState lib tokens states ρ → ∀ k ∈ ρ.db.transactions.keys,
      ∃ n < ρ.generated + 1, k = lib.hashToken (states n) := by
    intro ρ hρ k hk
    obtain ⟨n, hn, hsame⟩ := hρ.drawn k hk
    exact ⟨n, Nat.lt_succ_of_lt hn, hsame⟩
  -- The state that is drawn is new to both, so neither refuses it.
  have hnew : τ.db.transactions.get? (lib.hashToken (states σ.generated)) = none := by
    rw [h.generated]
    exact h.right.state_new hstates
  obtain ⟨hanswer, hend⟩ := hflow.close
    { alike := h.alike
      drawn := by rw [h.left.state_new hstates, hnew]
      sessions := ⟨rfl, rfl⟩
      given := ⟨hdrawn h.left, h.generated ▸ hdrawn h.right⟩ }
  exact ⟨hanswer,
    { clock := h.clock
      generated := by rw [h.generated]
      alike := hend.alike
      left := h.left.signedIn hend.sessions.1 hend.given.1
      right := h.right.signedIn hend.sessions.2 (h.generated ▸ hend.given.2) }⟩

variable (U bracketedHost hmac settings lib mgr tokens states backend)

/-- A call, in both. -/
theorem Unnoticed.call (h : Unnoticed lib tokens states σ τ) (htokens : Function.Injective tokens)
    (operation : AuthOperation) :
    let perform := MaintainedState.perform U bracketedHost hmac settings lib mgr tokens states backend
    (perform (.serve (.call operation)) σ).1 = (perform (.serve (.call operation)) τ).1 ∧
      Unnoticed lib tokens states (perform (.serve (.call operation)) σ).2
        (perform (.serve (.call operation)) τ).2 := by
  have hsame : SameAnswer σ.clock (σ.db.toAuthDatabase.call lib.letters backend (tokens σ.generated) σ.clock operation)
      (τ.db.toAuthDatabase.call lib.letters backend (tokens τ.generated) τ.clock operation) := by
    rw [← h.clock, ← h.generated]
    exact h.alike.identity.call h.left.tidy (h.clock ▸ h.right.tidy) (h.left.token_ne htokens)
      (h.generated ▸ h.right.token_ne htokens) operation
  unfold MaintainedState.perform RetainedDatabase.serve
  dsimp only
  rcases hsame.cases with ⟨e, e', hx, hy⟩ | ⟨answer, d, d', hx, hy, halike⟩
  · rw [hx, hy]
    exact ⟨rfl, h.clock, by rw [h.generated], h.alike, h.left.idle, h.right.idle⟩
  · have hleft : σ.db.toAuthDatabase.perform lib.letters backend (tokens σ.generated) σ.clock operation = .ok d := by
      rw [← call_perform, hx]
      rfl
    have hright : τ.db.toAuthDatabase.perform lib.letters backend (tokens τ.generated) τ.clock operation = .ok d' := by
      rw [← call_perform, hy]
      rfl
    rw [hx, hy]
    exact ⟨rfl, h.clock, by rw [h.generated], { h.alike with identity := halike }, h.left.perform htokens hleft,
      h.right.perform htokens hright⟩

/-- A request, in both. -/
theorem Unnoticed.request (h : Unnoticed lib tokens states σ τ) (htokens : Function.Injective tokens) (r : WebRequest) :
    let perform := MaintainedState.perform U bracketedHost hmac settings lib mgr tokens states backend
    (perform (.serve (.request r)) σ).1 = (perform (.serve (.request r)) τ).1 ∧
      Unnoticed lib tokens states (perform (.serve (.request r)) σ).2 (perform (.serve (.request r)) τ).2 := by
  have htidy : Tidy σ.clock τ.db.toAuthDatabase := h.clock ▸ h.right.tidy
  obtain ⟨-, halike⟩ :=
    WebRequest.authenticate_alike lib.hashToken settings backend r h.alike.identity h.left.tidy htidy
  have hserve : (r.serve U bracketedHost lib.hashToken hmac settings backend σ.clock σ.db.toAuthDatabase).map
      WebRequest.unnumbered = (r.serve U bracketedHost lib.hashToken hmac settings backend τ.clock
        τ.db.toAuthDatabase).map WebRequest.unnumbered := by
    rw [← h.clock]
    exact WebRequest.serve_alike h.alike.identity h.left.tidy htidy
  refine ⟨congrArg MaintainedAnswer.request hserve, h.clock, congrArg (· + 1) h.generated, ?_,
    h.left.authenticate htokens r, h.right.authenticate htokens r⟩
  unfold MaintainedState.perform RetainedDatabase.serve
  dsimp only
  rw [← h.clock]
  exact { h.alike with identity := halike }

/-- What the service does, in both. -/
theorem Unnoticed.serve (h : Unnoticed lib tokens states σ τ) (htokens : Function.Injective tokens)
    (hstates : Function.Injective fun n => lib.hashToken (states n)) (action : ServiceAction) :
    let perform := MaintainedState.perform U bracketedHost hmac settings lib mgr tokens states backend
    (perform (.serve action) σ).1 = (perform (.serve action) τ).1 ∧
      Unnoticed lib tokens states (perform (.serve action) σ).2 (perform (.serve action) τ).2 := by
  cases action with
  | call operation => exact h.call U bracketedHost hmac settings lib mgr tokens states backend htokens operation
  | request r => exact h.request U bracketedHost hmac settings lib mgr tokens states backend htokens r
  | initiate answers rawNonce codeVerifier returnTo =>
      obtain ⟨hanswer, hnext⟩ := h.signIn hstates (coupled_createAuthorizationFlow mgr backend answers
        (states σ.generated) rawNonce codeVerifier returnTo ⟨_, Nat.lt_succ_self _, rfl⟩)
      unfold MaintainedState.perform RetainedDatabase.serve
      dsimp only
      rw [← h.clock, ← h.generated] at hnext ⊢
      exact ⟨congrArg MaintainedAnswer.initiated hanswer, hnext⟩
  | callback answers code state =>
      obtain ⟨hanswer, hnext⟩ := h.signIn hstates (coupled_processCallback mgr backend answers code state)
      unfold MaintainedState.perform RetainedDatabase.serve OidcDatabase.callback
      dsimp only
      rw [← h.clock] at hnext ⊢
      exact ⟨congrArg MaintainedAnswer.callback hanswer, hnext⟩

/-- Before anything is stored there is nothing to keep. -/
theorem kept_initial (lib : OidcLibraries) (tokens states : Nat → String) (principals : List Principal)
    (trustedIssuers : Dict String Bool) (clock : Instant) :
    KeptState lib tokens states (.initial principals trustedIssuers clock) where
  tidy := by
    refine ⟨?_, fun s hs => absurd hs List.not_mem_nil⟩
    intro i j s t hs
    cases hs
  given := fun s hs => absurd hs List.not_mem_nil
  drawn := fun k hk => absurd hk List.not_mem_nil

end Runs

end Untangle
