import Untangle.Correctness.Auth.Shrinking
import Untangle.Webapp.Middleware

/-!
# `Correctness.Webapp.Middleware` — who reaches a route of a tenant

The session of a cookie stands for a member (`Stands`) if it is live, its principal and its organisation are active and
it is bound to the membership as it is. That, and what CSRF asks of a request that is not safe, is what lets a request
through, and nothing else. A token that is over stays so, whatever calls and requests come.
-/

namespace Untangle

open Lib AuthDatabase

/-! ## Sessions that stand -/

/-- The session of a token is live, and bound to a membership as it is. -/
structure Stands (db : AuthDatabase) (now : Instant) (tokenHash : String) (organisationId principalId : Nat)
    (role : Role) : Prop where
  session : ∃ i s, db.findSession tokenHash = some (i, s) ∧ s.val.live now = true ∧ s.val.principalId = principalId ∧
    ∃ m, s.val.active = some (organisationId, m.authVersion) ∧
      db.memberships.get? (organisationId, principalId) = some m ∧ m.status = .active ∧ m.roleCode = role
  principal : db.principalActive principalId = true
  organisation : db.organisationActive organisationId = true

variable {backend : Backend} {db : AuthDatabase} {now : Instant} {tokenHash : String}

theorem standing_eq_current {principalId organisationId : Nat} {authVersion : ℕ+} {found : Option Nat × Option Role} :
    standing backend principalId organisationId authVersion db = (false, found) ↔
      ∃ m, db.memberships.get? (organisationId, principalId) = some m ∧ m.status = .active ∧
        m.authVersion = authVersion ∧ db.organisationActive organisationId = true ∧
        found = (some organisationId, some m.roleCode) := by
  unfold standing organisationActive
  cases ho : db.organisations[organisationId]? with
  | none => simp
  | some o =>
      cases hm : db.memberships.get? (organisationId, principalId) with
      | none => cases backend <;> simp
      | some m =>
          dsimp only
          split
          · rename_i houtdated
            simp only [outdated, Bool.or_eq_true, decide_eq_true_eq, Bool.not_eq_true'] at houtdated
            constructor
            · cases backend <;> simp
            · rintro ⟨m', hm', hactive, hversion, horganisation, -⟩
              obtain rfl := Option.some.inj hm'
              rcases houtdated with (hstatus | hinactive) | hchanged
              · exact absurd hactive hstatus
              · rw [Option.any_some, hinactive] at horganisation
                cases horganisation
              · exact absurd hversion hchanged
          · rename_i hcurrent
            simp only [outdated, Bool.or_eq_true, decide_eq_true_eq, Bool.not_eq_true', not_or, not_not,
              Bool.not_eq_false] at hcurrent
            constructor
            · intro h
              exact ⟨m, rfl, hcurrent.1.1, hcurrent.2, hcurrent.1.2, (Prod.mk.inj h).2.symm⟩
            · rintro ⟨m', hm', -, -, -, hfound⟩
              obtain rfl := Option.some.inj hm'
              rw [hfound]

/-- What a lookup says of a session that is not over: whom it stands for. -/
theorem lookupSession_stands (backend : Backend) {organisationId principalId : Nat} {role : Role} :
    (∃ info, db.lookupSession backend tokenHash now = some info ∧ info.isRevoked = false ∧ info.isStale = false ∧
      info.activeOrganisationId = some organisationId ∧ info.activeRoleCode = some role ∧
      info.principalId = principalId) ↔ Stands db now tokenHash organisationId principalId role := by
  constructor
  · rintro ⟨info, hlookup, hrevoked, hstale, horganisation, hrole, hprincipal⟩
    unfold lookupSession at hlookup
    split at hlookup
    · cases hlookup
    · rename_i i s hfound
      split at hlookup
      · cases hlookup
      · rename_i p hp
        obtain rfl := Option.some.inj hlookup
        dsimp only at hrevoked hstale horganisation hrole hprincipal
        rw [isRevoked_eq, Bool.or_eq_false_iff, Bool.not_eq_false', Bool.not_eq_false'] at hrevoked
        obtain ⟨⟨organisationId', authVersion⟩, hbinding, rfl⟩ := Option.map_eq_some_iff.mp horganisation
        rw [hbinding] at hstale hrole
        dsimp only at hstale hrole
        generalize hstanding : standing backend s.val.principalId organisationId' authVersion db = found at hstale hrole
        obtain ⟨stale, named⟩ := found
        obtain rfl : stale = false := hstale
        obtain ⟨m, hm, hactive, hversion, ho, rfl⟩ := standing_eq_current.mp hstanding
        subst hprincipal
        refine ⟨⟨i, s, hfound, hrevoked.1, rfl, m, ?_, hm, hactive, Option.some.inj hrole⟩, ?_, ho⟩
        · rw [hbinding, hversion]
        · unfold principalActive
          rw [hp]
          exact hrevoked.2
  · rintro ⟨⟨i, s, hfound, hlive, rfl, m, hbinding, hm, hactive, rfl⟩, hprincipal, ho⟩
    unfold principalActive at hprincipal
    obtain ⟨p, hp, hpActive⟩ := (Option.any_eq_true _ _).mp hprincipal
    have hstanding : standing backend s.val.principalId organisationId m.authVersion db =
        (false, some organisationId, some m.roleCode) := standing_eq_current.mpr ⟨m, hm, hactive, rfl, ho, rfl⟩
    unfold lookupSession
    rw [hfound]
    dsimp only
    rw [hp]
    refine ⟨_, rfl, ?_, ?_, ?_, ?_, rfl⟩
    · rw [isRevoked_eq, hlive, hpActive]
      rfl
    · simp only [hbinding, hstanding]
    · rw [hbinding]
      rfl
    · simp only [hbinding, hstanding]

/-- A live session can be touched. -/
theorem touchSessionThrottled_ok (hdistinct : ∀ (i j : Nat) (s t : SessionRecord), db.sessions[i]? = some s →
      db.sessions[j]? = some t → s.val.sessionTokenHash = t.val.sessionTokenHash → i = j) (tokenHash : String) :
    ∃ wrote db', db.touchSessionThrottled backend tokenHash now = .ok (wrote, db') := by
  unfold touchSessionThrottled
  cases hfound : db.findSession tokenHash with
  | none => exact ⟨false, db, rfl⟩
  | some found =>
      obtain ⟨i, s⟩ := found
      obtain ⟨hs, rfl⟩ := findSession_eq_some hfound
      dsimp only
      split
      · rename_i hwrites
        rw [Bool.and_eq_true] at hwrites
        obtain ⟨hrevoked, habsolute, hidle⟩ := UserSession.live_iff.mp hwrites.1
        have htaken : db.tokenTaken s.val.sessionTokenHash i = false := by
          by_contra htaken
          obtain ⟨p, hp, hsame⟩ := List.any_eq_true.mp (Bool.of_not_eq_false htaken)
          simp only [Bool.and_eq_true, decide_eq_true_eq] at hsame
          exact hsame.2 (hdistinct _ _ _ _ (List.mem_zipIdx_iff_getElem?.mp hp) hs hsame.1)
        let touched : UserSession :=
          { s.val with
            lastActiveAt := now
            idleExpiresAt := min (now + seconds idleTimeoutSeconds) s.val.absoluteExpiresAt }
        have hcheck : touched.check = true := by
          have hnow : now ≤ now + seconds idleTimeoutSeconds := Int.le_add_of_nonneg_right (by decide)
          simp only [touched, UserSession.check, Bool.and_eq_true, decide_eq_true_eq, hrevoked, Option.all_none, and_true]
          exact ⟨le_min hnow habsolute.le, min_le_right _ _⟩
        refine ⟨true, { db with sessions := db.sessions.set i ⟨touched, hcheck⟩ }, ?_⟩
        have hupdate : db.updateSession i touched = .ok { db with sessions := db.sessions.set i ⟨touched, hcheck⟩ } :=
          updateSession_eq_ok.mpr ⟨htaken, ⟨touched, hcheck⟩, rfl, rfl⟩
        show (db.updateSession i touched >>= fun db' => pure (true, db')) = _
        rw [hupdate]
        rfl
      · exact ⟨false, db, rfl⟩

/-! ## Requests -/

/-- Nothing fails of the database while a request is authenticated. -/
structure WebRequest.Undisturbed (settings : WebSettings) (r : WebRequest) : Prop where
  database : settings.hasDatabase = true
  lookup : r.lookupFails = false
  touch : r.touchFails = false

namespace WebRequest

variable (U : Unicode) (bracketedHost : List Char → Bool) (hashToken : String → String)
  (hmac : String → String → String) (settings : WebSettings) (backend : Backend)

/-- The request comes from an origin that is allowed. -/
def OriginAllowed (r : WebRequest) : Prop :=
  ∃ header scheme netloc, (truthy r.origin <|> truthy r.referer) = some header ∧
    urlparse U bracketedHost header = some (scheme, netloc) ∧
    rstripSlash (String.ofList (scheme ++ "://".toList ++ netloc)) ∈ settings.allowedOrigins

/-- The request brings the CSRF token of its cookie. -/
def TokenMatches (r : WebRequest) (rawToken : String) : Prop :=
  ∃ token secretKey, truthy r.csrfToken = some token ∧ settings.appSecretKey = some secretKey ∧
    verifyCsrfToken hmac secretKey (hashToken rawToken) token = some true

variable {U bracketedHost hashToken hmac settings backend} {r : WebRequest}

/-- A session is one of the cookie, and the lookup reports it neither revoked nor stale. -/
theorem authenticate_session {rawToken : String} {info : SessionInfo}
    (h : (r.authenticate hashToken settings backend now db).1.session = some (rawToken, info)) :
    r.sessionCookie = some rawToken ∧ db.lookupSession backend (hashToken rawToken) now = some info ∧
      info.isRevoked = false ∧ info.isStale = false := by
  unfold authenticate at h
  split at h
  · cases h
  · rename_i raw hcookie
    split at h
    · cases h
    · split at h
      · cases h
      · rename_i found hlookup
        split at h
        · cases h
        · rename_i hstands
          rw [not_or, Bool.not_eq_true, Bool.not_eq_true] at hstands
          have hsame : raw = rawToken ∧ found = info := by
            split at h
            · exact Prod.mk.inj (Option.some.inj h)
            · split at h
              · exact Prod.mk.inj (Option.some.inj h)
              · exact Prod.mk.inj (Option.some.inj h)
          obtain ⟨rfl, rfl⟩ := hsame
          exact ⟨hcookie, hlookup, hstands⟩

theorem contextOf_eq_some {info : SessionInfo} {context : TenantContext} :
    r.contextOf info = some context ↔ ∃ organisationId role, info.activeOrganisationId = some organisationId ∧
      info.activeRoleCode = some role ∧ context = .ofIds organisationId info.principalId role r.requestId := by
  unfold contextOf
  constructor
  · intro h
    split at h
    · rename_i organisationId role ho hrole
      exact ⟨organisationId, role, ho, hrole, (Option.some.inj h).symm⟩
    · cases h
  · rintro ⟨organisationId, role, ho, hrole, rfl⟩
    rw [ho, hrole]

/-- What is set of a request whose cookie is looked up and touched. -/
theorem authenticate_eq (hundisturbed : r.Undisturbed settings) {rawToken : String} {info : SessionInfo}
    (hcookie : r.sessionCookie = some rawToken) (hlookup : db.lookupSession backend (hashToken rawToken) now = some info)
    (hrevoked : info.isRevoked = false) (hstale : info.isStale = false)
    (htouch : ∃ wrote db', db.touchSessionThrottled backend (hashToken rawToken) now = .ok (wrote, db')) :
    (r.authenticate hashToken settings backend now db).1 =
      { session := some (rawToken, info), tenantContext := r.contextOf info } := by
  obtain ⟨wrote, db', htouched⟩ := htouch
  unfold authenticate
  simp only [hcookie, hundisturbed.database, hundisturbed.lookup, hlookup, hrevoked, hstale, hundisturbed.touch,
    htouched, Bool.true_eq_false, Bool.false_eq_true, or_self, if_false]

/-- Who has a context was looked up and touched. -/
theorem authenticate_of_context {context : TenantContext}
    (h : (r.authenticate hashToken settings backend now db).1.tenantContext = some context) :
    r.Undisturbed settings ∧ ∃ rawToken info, r.sessionCookie = some rawToken ∧
      db.lookupSession backend (hashToken rawToken) now = some info ∧ info.isRevoked = false ∧ info.isStale = false ∧
      r.contextOf info = some context ∧
      (r.authenticate hashToken settings backend now db).1.session = some (rawToken, info) := by
  unfold authenticate at h ⊢
  split at h
  · cases h
  · rename_i rawToken hcookie
    split at h
    · cases h
    · rename_i hfails
      split at h
      · cases h
      · rename_i info hlookup
        split at h
        · cases h
        · rename_i hstands
          split at h
          · cases h
          · rename_i htouch
            split at h
            · cases h
            · rename_i htouched
              refine ⟨?_, rawToken, info, hcookie, hlookup, ?_, ?_, h, ?_⟩
              · rw [not_or, Bool.not_eq_false, Bool.not_eq_true] at hfails
                exact ⟨hfails.1, hfails.2, Bool.eq_false_iff.mpr htouch⟩
              · exact Bool.eq_false_iff.mpr fun hrevoked => hstands (Or.inl hrevoked)
              · exact Bool.eq_false_iff.mpr fun hstale => hstands (Or.inr hstale)
              · simp only [if_neg hfails, if_neg hstands, if_neg htouch]

/-- **Who is given a context**: those whose cookie stands for a member. -/
theorem authenticate_context (hdistinct : ∀ (i j : Nat) (s t : SessionRecord), db.sessions[i]? = some s →
      db.sessions[j]? = some t → s.val.sessionTokenHash = t.val.sessionTokenHash → i = j) {context : TenantContext} :
    (r.authenticate hashToken settings backend now db).1.tenantContext = some context ↔
      r.Undisturbed settings ∧ ∃ rawToken, r.sessionCookie = some rawToken ∧ ∃ organisationId principalId role,
        Stands db now (hashToken rawToken) organisationId principalId role ∧
          context = .ofIds organisationId principalId role r.requestId := by
  constructor
  · intro h
    obtain ⟨hundisturbed, rawToken, info, hcookie, hlookup, hrevoked, hstale, hcontext, -⟩ := authenticate_of_context h
    obtain ⟨organisationId, role, ho, hrole, hcontext⟩ := contextOf_eq_some.mp hcontext
    exact ⟨hundisturbed, rawToken, hcookie, organisationId, info.principalId, role,
      (lookupSession_stands backend).mp ⟨info, hlookup, hrevoked, hstale, ho, hrole, rfl⟩, hcontext⟩
  · rintro ⟨hundisturbed, rawToken, hcookie, organisationId, principalId, role, hstands, rfl⟩
    obtain ⟨info, hlookup, hrevoked, hstale, ho, hrole, rfl⟩ := (lookupSession_stands backend).mpr hstands
    rw [authenticate_eq hundisturbed hcookie hlookup hrevoked hstale (touchSessionThrottled_ok hdistinct _)]
    exact contextOf_eq_some.mpr ⟨organisationId, role, ho, hrole, rfl⟩

theorem truthy_ne_empty {text : Option String} {s : String} (h : truthy text = some s) : s ≠ "" := by
  obtain ⟨-, hne⟩ := Option.filter_eq_some_iff.mp h
  exact of_decide_eq_true hne

theorem orElse_eq_some {a b : Option String} {s : String} (h : (a <|> b) = some s) : a = some s ∨ b = some s := by
  cases a with
  | none => exact Or.inr h
  | some t => exact Or.inl h

theorem sessionCookie_ne_empty {rawToken : String} (h : r.sessionCookie = some rawToken) : rawToken ≠ "" := by
  unfold sessionCookie at h
  rcases orElse_eq_some h with hprod | hdev
  · exact truthy_ne_empty hprod
  · exact truthy_ne_empty hdev

/-- The token is checked against the cookie of the session. -/
theorem checkCsrfToken_eq_none {session : Option (String × SessionInfo)}
    (hsession : ∀ rawToken info, session = some (rawToken, info) → r.sessionCookie = some rawToken) {rawToken : String}
    (hcookie : r.sessionCookie = some rawToken) :
    r.checkCsrfToken hashToken hmac settings session = none ↔ r.TokenMatches hashToken hmac settings rawToken := by
  have hraw : (truthy (session.map Prod.fst) <|> r.sessionCookie).getD "" = rawToken := by
    cases session with
    | none => rw [hcookie]; rfl
    | some found =>
        obtain rfl := Option.some.inj ((hsession found.1 found.2 rfl).symm.trans hcookie)
        have hkept : truthy ((some found).map Prod.fst) = some found.1 :=
          Option.filter_eq_some_iff.mpr ⟨rfl, decide_eq_true (sessionCookie_ne_empty hcookie)⟩
        rw [hkept]
        rfl
  unfold checkCsrfToken TokenMatches
  rw [hraw]
  cases truthy r.csrfToken with
  | none => simp
  | some token =>
      cases settings.appSecretKey with
      | none => simp
      | some secretKey =>
          dsimp only
          cases hverify : verifyCsrfToken hmac secretKey (hashToken rawToken) token with
          | none => simp [hverify]
          | some verified => cases verified <;> simp [hverify]

/-- **Which requests CSRF lets on**, where the session is one of the cookie. -/
theorem csrf_eq_none {session : Option (String × SessionInfo)}
    (hsession : ∀ rawToken info, session = some (rawToken, info) → r.sessionCookie = some rawToken) :
    r.csrf U bracketedHost hashToken hmac settings session = none ↔
      r.method ∈ safeMethods ∨ r.path ∈ exemptPaths ∨ (r.isControlPlane = false ∧ r.sessionCookie = none) ∨
        r.OriginAllowed U bracketedHost settings ∧
          ∀ rawToken, r.sessionCookie = some rawToken → r.TokenMatches hashToken hmac settings rawToken := by
  unfold csrf
  by_cases hsafe : r.method ∈ safeMethods
  · simp [hsafe]
  rw [if_neg hsafe, or_iff_right hsafe]
  by_cases hexempt : r.path ∈ exemptPaths
  · simp [hexempt]
  rw [if_neg hexempt, or_iff_right hexempt]
  by_cases hchecked : r.isControlPlane = true ∨ r.sessionCookie.isSome = true
  · have hnot : ¬ (r.isControlPlane = false ∧ r.sessionCookie = none) := by
      rintro ⟨hplane, hnone⟩
      rw [hplane, hnone] at hchecked
      simp at hchecked
    rw [if_pos hchecked, or_iff_right hnot]
    constructor
    · intro h
      split at h
      · cases h
      · rename_i header hheader
        split at h
        · cases h
        · rename_i scheme netloc hparsed
          dsimp only at h
          by_cases hallowed : rstripSlash (String.ofList (scheme ++ "://".toList ++ netloc)) ∈ settings.allowedOrigins
          · refine ⟨⟨header, scheme, netloc, hheader, hparsed, hallowed⟩, fun rawToken hcookie => ?_⟩
            rw [if_neg (not_not.mpr hallowed), if_pos (Or.inr (Option.isSome_of_eq_some hcookie))] at h
            exact (checkCsrfToken_eq_none hsession hcookie).mp h
          · rw [if_pos hallowed] at h
            cases h
    · rintro ⟨⟨header, scheme, netloc, hheader, hparsed, hallowed⟩, htoken⟩
      rw [hheader]
      dsimp only
      rw [hparsed]
      dsimp only
      rw [if_neg (not_not.mpr hallowed)]
      cases hcookie : r.sessionCookie with
      | some rawToken =>
          rw [if_pos (Or.inr Option.isSome_some)]
          exact (checkCsrfToken_eq_none hsession hcookie).mpr (htoken rawToken hcookie)
      | none =>
          have hnone : session = none := by
            cases session with
            | none => rfl
            | some found =>
                rw [hsession found.1 found.2 rfl] at hcookie
                cases hcookie
          rw [hnone, if_neg (by simp)]
  · have hunchecked : r.isControlPlane = false ∧ r.sessionCookie = none := by
      rw [not_or, Bool.not_eq_true, Option.not_isSome_iff_eq_none] at hchecked
      exact hchecked
    rw [if_neg hchecked]
    exact iff_of_true rfl (Or.inl hunchecked)

/-- What reaches a route, guarded or not. -/
theorem serve_eq_ok {state : RequestState} :
    r.serve U bracketedHost hashToken hmac settings backend now db = .ok state ↔
      (r.authenticate hashToken settings backend now db).1 = state ∧
        r.csrf U bracketedHost hashToken hmac settings state.session = none ∧ r.guardTenant state = none := by
  unfold serve
  dsimp only
  constructor
  · intro h
    split at h
    · cases h
    · rename_i hcsrf
      split at h
      · cases h
      · rename_i hguard
        obtain rfl := Except.ok.inj h
        exact ⟨rfl, hcsrf, hguard⟩
  · rintro ⟨rfl, hcsrf, hguard⟩
    rw [hcsrf]
    dsimp only
    rw [hguard]

/-- The guard of a tenant's routes lets on whom has a context. -/
theorem guardTenant_eq_none (htenant : r.isTenantPath = true) :
    r.guardTenant (r.authenticate hashToken settings backend now db).1 = none ↔
      ∃ context, (r.authenticate hashToken settings backend now db).1.tenantContext = some context := by
  unfold guardTenant
  rw [if_pos htenant]
  constructor
  · intro h
    split at h
    · cases h
    · split at h
      · cases h
      · rename_i hcontext
        exact Option.ne_none_iff_exists'.mp fun hnone => hcontext (Or.inl (Option.isNone_iff_eq_none.mpr hnone))
  · rintro ⟨context, hcontext⟩
    obtain ⟨-, rawToken, info, -, -, -, -, hof, hsession⟩ := authenticate_of_context hcontext
    obtain ⟨organisationId, role, ho, -, -⟩ := contextOf_eq_some.mp hof
    rw [hsession]
    dsimp only
    rw [hcontext, ho, if_neg (by simp)]

/-- **Who reaches a route of a tenant**: whose cookie stands for a member, with what CSRF asks for. -/
theorem serve_tenant (htenant : r.isTenantPath = true)
    (hdistinct : ∀ (i j : Nat) (s t : SessionRecord), db.sessions[i]? = some s → db.sessions[j]? = some t →
      s.val.sessionTokenHash = t.val.sessionTokenHash → i = j) {context : TenantContext} :
    (∃ state, r.serve U bracketedHost hashToken hmac settings backend now db = .ok state ∧
        state.tenantContext = some context) ↔
      r.Undisturbed settings ∧ ∃ rawToken, r.sessionCookie = some rawToken ∧
        (∃ organisationId principalId role, Stands db now (hashToken rawToken) organisationId principalId role ∧
          context = .ofIds organisationId principalId role r.requestId) ∧
        (r.method ∈ safeMethods ∨ r.OriginAllowed U bracketedHost settings ∧
          r.TokenMatches hashToken hmac settings rawToken) := by
  have hexempt : r.path ∉ exemptPaths := by
    intro hmem
    simp only [exemptPaths, List.mem_cons, List.not_mem_nil, or_false] at hmem
    unfold isTenantPath at htenant
    rcases hmem with h | h | h <;> rw [h] at htenant <;> revert htenant <;> decide
  have hcookies : ∀ rawToken info, (r.authenticate hashToken settings backend now db).1.session = some (rawToken, info) →
      r.sessionCookie = some rawToken := fun _ _ h => (authenticate_session h).1
  have hcsrf : ∀ rawToken, r.sessionCookie = some rawToken →
      (r.csrf U bracketedHost hashToken hmac settings (r.authenticate hashToken settings backend now db).1.session = none ↔
        r.method ∈ safeMethods ∨ r.OriginAllowed U bracketedHost settings ∧
          r.TokenMatches hashToken hmac settings rawToken) := by
    intro rawToken hcookie
    rw [csrf_eq_none hcookies, or_iff_right hexempt, hcookie]
    simp
  constructor
  · rintro ⟨state, hserve, hcontext⟩
    obtain ⟨rfl, hpasses, hguard⟩ := serve_eq_ok.mp hserve
    obtain ⟨hundisturbed, rawToken, hcookie, hstands⟩ := (authenticate_context hdistinct).mp hcontext
    exact ⟨hundisturbed, rawToken, hcookie, hstands, (hcsrf rawToken hcookie).mp hpasses⟩
  · rintro ⟨hundisturbed, rawToken, hcookie, hstands, hpasses⟩
    have hcontext : (r.authenticate hashToken settings backend now db).1.tenantContext = some context :=
      (authenticate_context hdistinct).mpr ⟨hundisturbed, rawToken, hcookie, hstands⟩
    exact ⟨_, serve_eq_ok.mpr ⟨rfl, (hcsrf rawToken hcookie).mpr hpasses,
      (guardTenant_eq_none htenant).mpr ⟨context, hcontext⟩⟩, hcontext⟩

end WebRequest

/-! ## Runs -/

section Runs

variable {L : Letters} {tokens : Nat → String}

/-- A request does to the identity tables what one of the calls does. -/
theorem webStep_eq (L : Letters) (tokens : Nat → String) (hashToken : String → String) (settings : WebSettings)
    (backend : Backend) (σ : AuthState) (action : Nat × WebAction) :
    ∃ call, σ.webStep L tokens hashToken settings backend action = σ.step L tokens backend call := by
  obtain ⟨delay, action⟩ := action
  cases action with
  | call operation => exact ⟨(delay, operation), rfl⟩
  | request r =>
      have hidle : (⟨σ.db, σ.clock + delay, σ.generated + 1⟩ : AuthState) =
          σ.step L tokens backend (delay, .lookupSession "") := rfl
      unfold AuthState.webStep WebRequest.authenticate
      dsimp only
      split
      · exact ⟨_, hidle⟩
      · rename_i rawToken hcookie
        split
        · exact ⟨_, hidle⟩
        · split
          · exact ⟨_, hidle⟩
          · split
            · exact ⟨_, hidle⟩
            · split
              · exact ⟨_, hidle⟩
              · split
                · exact ⟨_, hidle⟩
                · rename_i wrote db' htouched
                  refine ⟨(delay, .touchSession (hashToken rawToken) idleTimeoutSeconds touchThrottleSeconds), ?_⟩
                  simp only [AuthState.step, AuthDatabase.perform, htouched]
                  rfl

/-- So the runs with requests are runs of calls. -/
theorem later_webRun (L : Letters) (hashToken : String → String) (settings : WebSettings) (backend : Backend)
    {σ : AuthState} (hσ : Sound tokens σ) (htokens : Function.Injective tokens) (actions : List (Nat × WebAction)) :
    Sound tokens (run (AuthState.webStep L tokens hashToken settings backend) σ actions) ∧
      Later tokens σ (run (AuthState.webStep L tokens hashToken settings backend) σ actions) := by
  have hsimulates : ∃ calls, id (run (AuthState.webStep L tokens hashToken settings backend) σ actions) =
      run (AuthState.step L tokens backend) (id σ) calls :=
    simulates (AuthState.step L tokens backend) (I := fun _ => True) (fun _ _ _ => trivial)
      (fun σ action _ => Or.inr (webStep_eq L tokens hashToken settings backend σ action)) trivial actions
  obtain ⟨calls, hcalls⟩ := hsimulates
  rw [id, id] at hcalls
  rw [hcalls]
  exact later_run hσ htokens L backend calls

/-- A token that was given out and leads to no live session. -/
structure Over (tokens : Nat → String) (σ : AuthState) (tokenHash : String) : Prop where
  given : ∃ n < σ.generated, tokenHash = tokens n
  notLive : ∀ i s, σ.db.findSession tokenHash = some (i, s) → s.val.live σ.clock = false

theorem Over.later {σ σ' : AuthState} {tokenHash : String} (hσ : Sound tokens σ) (hlater : Later tokens σ σ')
    (h : Over tokens σ tokenHash) : Over tokens σ' tokenHash := by
  obtain ⟨n, hn, rfl⟩ := h.given
  refine ⟨⟨n, hn.trans_le hlater.generated, rfl⟩, fun i s' hfound => ?_⟩
  obtain ⟨hs', htoken⟩ := findSession_eq_some hfound
  obtain ⟨s, hs, hgiven⟩ := hlater.given i s' n hs' hn htoken
  have hover := h.notLive i s (hgiven ▸ hσ.findSession hs)
  obtain ⟨t, ht, hages⟩ := hlater.sessions i s hs
  obtain rfl := Option.some.inj (hs'.symm.trans ht)
  exact (hages.ended hlater.clock hover).1

/-- A token that is over stands for nobody. -/
theorem Over.not_stands {σ : AuthState} {tokenHash : String} (h : Over tokens σ tokenHash) {now : Instant}
    (hnow : σ.clock ≤ now) {organisationId principalId : Nat} {role : Role} :
    ¬ Stands σ.db now tokenHash organisationId principalId role := by
  rintro ⟨⟨i, s, hfound, hlive, -⟩, -, -⟩
  have hover := ((Ages.refl σ.clock s.val).ended hnow (h.notLive i s hfound)).1
  rw [hlive] at hover
  cases hover

theorem revokeSession_true {tokenHash : String} {now : Instant} {db db' : AuthDatabase}
    (h : db.revokeSession tokenHash now = .ok (true, db')) :
    ∃ i s row, db.findSession tokenHash = some (i, s) ∧ row.val = { s.val with revokedAt := some now } ∧
      db' = { db with sessions := db.sessions.set i row } := by
  unfold revokeSession at h
  split at h
  · cases (Prod.mk.inj (Except.ok.inj h)).1
  · rename_i i s hfound
    split at h
    · obtain ⟨db₁, hupdate, h⟩ := bind_eq_ok.mp h
      obtain ⟨-, rfl⟩ := Prod.mk.inj (Except.ok.inj h)
      obtain ⟨-, row, hrow, rfl⟩ := updateSession_eq_ok.mp hupdate
      exact ⟨i, s, row, hfound, hrow, rfl⟩
    · cases (Prod.mk.inj (Except.ok.inj h)).1

/-- The token of a session that is revoked is over. -/
theorem over_of_revoked {σ : AuthState} (hσ : Sound tokens σ) {delay : Nat} {tokenHash : String} {db' : AuthDatabase}
    (h : σ.db.revokeSession tokenHash (σ.clock + delay) = .ok (true, db')) :
    Over tokens (σ.step L tokens backend (delay, .revokeSession tokenHash)) tokenHash := by
  obtain ⟨i, s, row, hfound, hrow, rfl⟩ := revokeSession_true h
  obtain ⟨hs, rfl⟩ := findSession_eq_some hfound
  obtain ⟨n, hn, htoken⟩ := hσ.given s (List.mem_of_getElem? hs)
  have hstep : (σ.step L tokens backend (delay, .revokeSession s.val.sessionTokenHash)).db.sessions =
      σ.db.sessions.set i row := by
    simp only [AuthState.step, AuthDatabase.perform, h]
    rfl
  refine ⟨⟨n, Nat.lt_succ_of_lt hn, htoken⟩, fun j t hfound' => ?_⟩
  obtain ⟨ht, hsame⟩ := findSession_eq_some hfound'
  rw [hstep] at ht
  by_cases hij : i = j
  · subst hij
    rw [List.getElem?_set_self (List.getElem?_eq_some_iff.mp hs).1] at ht
    obtain rfl := Option.some.inj ht
    rw [not_live_iff, hrow]
    exact Or.inl rfl
  · rw [List.getElem?_set_ne hij] at ht
    exact absurd (hσ.distinct i j s t hs ht hsame.symm) hij

/-- So is the one that a session had before a switch. -/
theorem over_of_switched {σ : AuthState} (hσ : Sound tokens σ) (htokens : Function.Injective tokens) {delay : Nat}
    {tokenHash : String} {target : Nat} {answer : (ℕ+ × Role) × AuthDatabase}
    (h : σ.db.switchOrganisation backend tokenHash target (tokens σ.generated) (σ.clock + delay) = .ok answer) :
    Over tokens (σ.step L tokens backend (delay, .switchOrganisation tokenHash target)) tokenHash := by
  have hnone := (endsSessions hσ htokens (Later.refl tokens
    (σ.step L tokens backend (delay, .switchOrganisation tokenHash target)))).switched tokenHash target answer rfl h
  obtain ⟨i, s, m, row, hfound, -⟩ := switchOrganisation_eq_ok h
  obtain ⟨hs, rfl⟩ := findSession_eq_some hfound
  obtain ⟨n, hn, htoken⟩ := hσ.given s (List.mem_of_getElem? hs)
  refine ⟨⟨n, Nat.lt_succ_of_lt hn, htoken⟩, fun j t hfound' => ?_⟩
  rw [hnone] at hfound'
  cases hfound'

end Runs

/-- **Who reaches a route of a tenant, in any run.** After any calls of the identity service and any requests, a request
    for a tenant reaches its route, with a context, exactly if its cookie stands for a member in the context's role, and
    it is safe or comes from an allowed origin with the CSRF token of the cookie; none reaches it without a context. A
    token that was revoked or switched, or ran out, never lets a request through again. -/
theorem tenant_access (U : Unicode) (bracketedHost : List Char → Bool) (hashToken : String → String)
    (hmac : String → String → String) (settings : WebSettings) (backend : Backend) (L : Letters) (tokens : Nat → String)
    (principals : List Principal) (clock : Instant) (actions : List (Nat × WebAction))
    (htokens : Function.Injective tokens) :
    let step := AuthState.webStep L tokens hashToken settings backend
    let σ := run step (.initial principals clock) actions
    (∀ (r : WebRequest) (now : Instant), r.isTenantPath = true →
      (∀ state, r.serve U bracketedHost hashToken hmac settings backend now σ.db = .ok state →
        ∃ context, state.tenantContext = some context) ∧
      ∀ context, (∃ state, r.serve U bracketedHost hashToken hmac settings backend now σ.db = .ok state ∧
          state.tenantContext = some context) ↔
        r.Undisturbed settings ∧ ∃ rawToken, r.sessionCookie = some rawToken ∧
          (∃ organisationId principalId role, Stands σ.db now (hashToken rawToken) organisationId principalId role ∧
            context = .ofIds organisationId principalId role r.requestId) ∧
          (r.method ∈ WebRequest.safeMethods ∨ r.OriginAllowed U bracketedHost settings ∧
            r.TokenMatches hashToken hmac settings rawToken)) ∧
    (∀ tokenHash, Over tokens σ tokenHash → ∀ more (r : WebRequest) (now : Instant) rawToken,
      (run step σ more).clock ≤ now → r.isTenantPath = true → r.sessionCookie = some rawToken →
      hashToken rawToken = tokenHash →
      ∀ state, r.serve U bracketedHost hashToken hmac settings backend now (run step σ more).db ≠ .ok state) ∧
    ∀ (delay : Nat) tokenHash,
      (∀ db', σ.db.revokeSession tokenHash (σ.clock + delay) = .ok (true, db') →
        Over tokens (step σ (delay, .call (.revokeSession tokenHash))) tokenHash) ∧
      ∀ target answer, σ.db.switchOrganisation backend tokenHash target (tokens σ.generated) (σ.clock + delay) =
          .ok answer → Over tokens (step σ (delay, .call (.switchOrganisation tokenHash target))) tokenHash := by
  intro step σ
  have hσ : Sound tokens σ := 
    (later_webRun L hashToken settings backend (sound_initial tokens principals clock) htokens actions).1
  refine ⟨fun r now htenant => ⟨fun state hserve => ?_, fun context => ?_⟩, ?_, fun delay tokenHash => ⟨?_, ?_⟩⟩
  · obtain ⟨rfl, -, hguard⟩ := WebRequest.serve_eq_ok.mp hserve
    exact (WebRequest.guardTenant_eq_none htenant).mp hguard
  · exact WebRequest.serve_tenant htenant hσ.distinct
  · rintro tokenHash hover more r now rawToken hnow htenant hcookie rfl state hserve
    obtain ⟨hσ', hlater⟩ := later_webRun L hashToken settings backend hσ htokens more
    obtain ⟨rfl, -, hguard⟩ := WebRequest.serve_eq_ok.mp hserve
    obtain ⟨context, hcontext⟩ := (WebRequest.guardTenant_eq_none htenant).mp hguard
    obtain ⟨-, raw, hraw, ⟨organisationId, principalId, role, hstands, -⟩⟩ :=
      (WebRequest.authenticate_context hσ'.distinct).mp hcontext
    obtain rfl := Option.some.inj (hcookie.symm.trans hraw)
    exact (hover.later hσ hlater).not_stands hnow hstands
  · exact fun _ hrevoke => over_of_revoked hσ hrevoke
  · exact fun _ _ hswitch => over_of_switched hσ htokens hswitch

/-- An owner signs in, creates an organisation and switches to it, and inspects a run with the new cookie. -/
theorem tenant_access_owner :
    let actions : List (Nat × WebAction) := [(0, .call (.createSession 0 none)),
      (1, .call (.createOrganisation (unaryToken 0) "Acme")), (1, .call (.switchOrganisation (unaryToken 0) 0))]
    let σ := run (AuthState.webStep plainLetters unaryToken id {} .sqlite) (.initial [{ email := "o" }] 0) actions
    let r : WebRequest :=
      { method := "GET", path := "/api/tenant/runs", cookies := [(WebRequest.cookieNameDev, unaryToken 2)] }
    (∃ state, r.serve asciiUnicode (fun _ => true) id (· ++ ·) {} .sqlite 3 σ.db = .ok state ∧
        state.tenantContext = some (.ofIds 0 0 .owner "")) ↔
      r.Undisturbed {} ∧ ∃ rawToken, r.sessionCookie = some rawToken ∧
        (∃ organisationId principalId role, Stands σ.db 3 (id rawToken) organisationId principalId role ∧
          TenantContext.ofIds 0 0 .owner "" = .ofIds organisationId principalId role r.requestId) ∧
        (r.method ∈ WebRequest.safeMethods ∨ r.OriginAllowed asciiUnicode (fun _ => true) {} ∧
          r.TokenMatches id (· ++ ·) {} rawToken) :=
  ((tenant_access asciiUnicode (fun _ => true) id (· ++ ·) {} .sqlite plainLetters unaryToken [{ email := "o" }] 0
    [(0, .call (.createSession 0 none)), (1, .call (.createOrganisation (unaryToken 0) "Acme")),
      (1, .call (.switchOrganisation (unaryToken 0) 0))] unaryToken_injective).1
    { method := "GET", path := "/api/tenant/runs", cookies := [(WebRequest.cookieNameDev, unaryToken 2)] } 3
    (by decide)).2 _

end Untangle
