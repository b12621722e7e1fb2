import Untangle.Auth.System

/-!
# `Correctness.Auth.Effects` — what a call of the identity service can do

A call that succeeds has one of a few effects on the database (`perform_effect`): it leaves it as it is, adds a session,
changes sessions row by row (`RowStep`), adds an organisation with its owner, changes a membership, or adds, answers
or accepts an invitation. The results about runs are case analyses over them and do not look at the calls again; the first
is that rows are of organisations that exist (`grounded_of_reachable`).
-/

namespace Untangle

open Lib

variable {L : Letters} {tokens : Nat → String} {backend : Backend} {db db' : AuthDatabase} {fresh : String}
  {now : Instant} {op : AuthOperation}

theorem storeSession_eq_ok {s : UserSession} {row : SessionRecord} : storeSession s = .ok row ↔ row.val = s := by
  unfold storeSession
  constructor
  · intro h
    split at h
    · rw [← Except.ok.inj h]
    · cases h
  · rintro rfl
    rw [dif_pos row.property]

theorem storeInvitation_eq_ok {i : OrganisationInvitation} {row : InvitationRecord} :
    storeInvitation i = .ok row ↔ row.val = i := by
  unfold storeInvitation
  constructor
  · intro h
    split at h
    · rw [← Except.ok.inj h]
    · cases h
  · rintro rfl
    rw [dif_pos row.property]

/-- The order of the three times of a session. -/
theorem SessionRecord.ordered (s : SessionRecord) :
    s.val.lastActiveAt ≤ s.val.idleExpiresAt ∧ s.val.idleExpiresAt ≤ s.val.absoluteExpiresAt := by
  have h := s.property
  simp only [UserSession.check, Bool.and_eq_true, decide_eq_true_eq] at h
  exact h.1

theorem UserSession.live_iff {s : UserSession} :
    s.live now = true ↔ s.revokedAt = none ∧ now < s.absoluteExpiresAt ∧ now < s.idleExpiresAt := by
  simp [UserSession.live, and_assoc]

namespace AuthDatabase

/-! ## Finding rows -/

theorem findSession_eq_some {tokenHash : String} {i : Nat} {s : SessionRecord}
    (h : db.findSession tokenHash = some (i, s)) : db.sessions[i]? = some s ∧ s.val.sessionTokenHash = tokenHash := by
  obtain ⟨n, hn, h⟩ := Option.bind_eq_some_iff.mp h
  obtain ⟨t, ht, h⟩ := Option.map_eq_some_iff.mp h
  obtain ⟨rfl, rfl⟩ := Prod.mk.inj h
  refine ⟨ht, ?_⟩
  obtain ⟨hlt, hget, _⟩ := List.findIdx?_eq_some_iff_getElem.mp hn
  rw [List.getElem?_eq_getElem hlt] at ht
  rw [← Option.some.inj ht]
  exact of_decide_eq_true hget

theorem findSession_eq_none {tokenHash : String} (h : db.findSession tokenHash = none) :
    ∀ s ∈ db.sessions, s.val.sessionTokenHash ≠ tokenHash := by
  intro s hs htoken
  cases hfound : db.sessions.findIdx? fun s => s.val.sessionTokenHash = tokenHash with
  | none =>
      have hnone := List.findIdx?_eq_none_iff.mp hfound s hs
      rw [decide_eq_false_iff_not] at hnone
      exact hnone htoken
  | some n =>
      obtain ⟨hlt, _⟩ := List.findIdx?_eq_some_iff_getElem.mp hfound
      unfold findSession at h
      rw [hfound, Option.bind_some, List.getElem?_eq_getElem hlt] at h
      cases h

theorem findInvitation_eq_some {tokenHash : String} {n : Nat} {i : InvitationRecord}
    (h : db.findInvitation tokenHash = some (n, i)) : db.invitations[n]? = some i := by
  obtain ⟨m, _, h⟩ := Option.bind_eq_some_iff.mp h
  obtain ⟨j, hj, h⟩ := Option.map_eq_some_iff.mp h
  obtain ⟨rfl, rfl⟩ := Prod.mk.inj h
  exact hj

theorem activeMembership_eq_some {organisationId principalId : Nat} {m : OrganisationMembership} :
    db.activeMembership organisationId principalId = some m ↔
      db.memberships.get? (organisationId, principalId) = some m ∧ m.status = .active := by
  unfold activeMembership
  rw [Option.filter_eq_some_iff, decide_eq_true_eq]

theorem caller_eq_some {tokenHash : String} {s : UserSession} (h : db.caller tokenHash now = some s) :
    ∃ i row, db.findSession tokenHash = some (i, row) ∧ row.val = s ∧ s.live now = true ∧
      db.principalActive s.principalId = true := by
  unfold caller at h
  split at h
  · cases h
  · rename_i i row hfound
    split at h
    · rename_i hlive
      obtain rfl := Option.some.inj h
      rw [Bool.and_eq_true] at hlive
      exact ⟨i, row, hfound, rfl, hlive.1, hlive.2⟩
    · cases h

/-! ## Writing rows -/

theorem updateSession_eq_ok {i : Nat} {s : UserSession} :
    db.updateSession i s = .ok db' ↔
      db.tokenTaken s.sessionTokenHash i = false ∧
        ∃ row : SessionRecord, row.val = s ∧ db' = { db with sessions := db.sessions.set i row } := by
  unfold updateSession
  rw [bind_unit_eq_ok, refuseIf_eq_ok, Bool.not_eq_true, bind_eq_ok]
  apply and_congr_right
  intro _
  constructor
  · rintro ⟨row, hrow, h⟩
    exact ⟨row, storeSession_eq_ok.mp hrow, (Except.ok.inj h).symm⟩
  · rintro ⟨row, hrow, rfl⟩
    exact ⟨row, storeSession_eq_ok.mpr hrow, rfl⟩

theorem updateInvitation_eq_ok {n : Nat} {i : OrganisationInvitation} :
    db.updateInvitation n i = .ok db' ↔
      ∃ row : InvitationRecord, row.val = i ∧ db' = { db with invitations := db.invitations.set n row } := by
  unfold updateInvitation
  rw [bind_eq_ok]
  constructor
  · rintro ⟨row, hrow, h⟩
    exact ⟨row, storeInvitation_eq_ok.mp hrow, (Except.ok.inj h).symm⟩
  · rintro ⟨row, hrow, rfl⟩
    exact ⟨row, storeInvitation_eq_ok.mpr hrow, rfl⟩

theorem insertMembership_eq_ok {organisationId principalId : Nat} {m : OrganisationMembership} :
    db.insertMembership organisationId principalId m = .ok db' ↔
      db.memberships.get? (organisationId, principalId) = none ∧ db.organisations[organisationId]?.isSome = true ∧
        db.principals[principalId]?.isSome = true ∧
        db' = { db with memberships := db.memberships.insert (organisationId, principalId) m } := by
  unfold insertMembership
  constructor
  · intro h
    split at h
    · cases h
    · rename_i hnew
      split at h
      · cases h
      · rename_i hkeys
        rw [not_or, Bool.not_eq_true, Option.isNone_eq_false_iff, Bool.not_eq_true, Option.isNone_eq_false_iff]
          at hkeys
        rw [Bool.not_eq_true, Option.isSome_eq_false_iff, Option.isNone_iff_eq_none] at hnew
        exact ⟨hnew, hkeys.1, hkeys.2, (Except.ok.inj h).symm⟩
  · rintro ⟨hnew, horganisation, hprincipal, rfl⟩
    rw [hnew, Option.isSome_none, if_neg Bool.false_ne_true, if_neg]
    rw [not_or, Bool.not_eq_true, Option.isNone_eq_false_iff, Bool.not_eq_true, Option.isNone_eq_false_iff]
    exact ⟨horganisation, hprincipal⟩

/-! ## Effects on a session -/

/-- What a call can do to the row of a session. -/
inductive RowStep (db : AuthDatabase) (fresh : String) (now : Instant) (s s' : SessionRecord) : Prop
  | same (h : s' = s)
  | touched (window : ℤ) (hlive : s.val.live now = true)
      (h : s'.val = { s.val with
        lastActiveAt := now
        idleExpiresAt := min (now + seconds window) s.val.absoluteExpiresAt })
  | rebound (organisationId : Nat) (m : OrganisationMembership) (hlive : s.val.live now = true)
      (hm : db.activeMembership organisationId s.val.principalId = some m)
      (h : s'.val = { s.val with
        active := some (organisationId, m.authVersion)
        sessionTokenHash := fresh
        lastActiveAt := now
        idleExpiresAt := min (now + seconds idleTimeoutSeconds) s.val.absoluteExpiresAt })
  | revoked (hunrevoked : s.val.revokedAt = none) (h : s'.val = { s.val with revokedAt := some now })

/-- Row by row, and no token is given twice. -/
structure RowsStep (db : AuthDatabase) (fresh : String) (now : Instant) (rows : List SessionRecord) : Prop where
  step : List.Forall₂ (RowStep db fresh now) db.sessions rows
  /-- Only one session is given the fresh token. -/
  rebinds : ∀ i s s', db.sessions[i]? = some s → rows[i]? = some s' →
    s'.val.sessionTokenHash ≠ s.val.sessionTokenHash → db.tokenTaken fresh i = false ∧ rows = db.sessions.set i s'

theorem forall₂_set {α : Type} {R : α → α → Prop} (hrefl : ∀ a, R a a) {l : List α} {i : Nat} {a b : α}
    (ha : l[i]? = some a) (hab : R a b) : List.Forall₂ R l (l.set i b) := by
  induction l generalizing i with
  | nil => exact List.Forall₂.nil
  | cons c l ih =>
      cases i with
      | zero =>
          rw [List.getElem?_cons_zero] at ha
          obtain rfl := Option.some.inj ha
          exact List.Forall₂.cons hab (List.forall₂_same.mpr fun a _ => hrefl a)
      | succ i =>
          rw [List.getElem?_cons_succ] at ha
          exact List.Forall₂.cons (hrefl c) (ih ha)

/-- An update of one session. -/
theorem rowsStep_set {i : Nat} {s s' : SessionRecord} (hs : db.sessions[i]? = some s)
    (hstep : RowStep db fresh now s s')
    (htaken : s'.val.sessionTokenHash ≠ s.val.sessionTokenHash → db.tokenTaken fresh i = false) :
    RowsStep db fresh now (db.sessions.set i s') := by
  refine ⟨forall₂_set (fun s => .same rfl) hs hstep, ?_⟩
  intro j t t' ht ht' hne
  by_cases hij : i = j
  · subst hij
    obtain rfl := Option.some.inj (hs.symm.trans ht)
    rw [List.getElem?_set_self (List.getElem?_eq_some_iff.mp hs).1] at ht'
    obtain rfl := Option.some.inj ht'
    exact ⟨htaken hne, rfl⟩
  · rw [List.getElem?_set_ne hij, ht] at ht'
    obtain rfl := Option.some.inj ht'
    exact absurd rfl hne

/-- `UPDATE … SET revoked_at`. -/
theorem revokeSessions_eq_ok {which : UserSession → Bool} (h : db.revokeSessions which now = .ok db') :
    ∃ rows, db' = { db with sessions := rows } ∧
      List.Forall₂ (fun s s' => if which s.val && s.val.revokedAt.isNone then
        s'.val = { s.val with revokedAt := some now } else s' = s) db.sessions rows := by
  obtain ⟨rows, hrows, h⟩ := bind_eq_ok.mp h
  refine ⟨rows, (Except.ok.inj h).symm, (mapM_eq_ok.mp hrows).imp fun s s' h => ?_⟩
  by_cases hwhich : (which s.val && s.val.revokedAt.isNone) = true
  · rw [if_pos hwhich] at h ⊢
    exact storeSession_eq_ok.mp h
  · rw [if_neg hwhich] at h ⊢
    exact (Except.ok.inj h).symm

theorem rowsStep_revoke (which : UserSession → Bool) {rows : List SessionRecord}
    (h : List.Forall₂ (fun s s' => if which s.val && s.val.revokedAt.isNone then
      s'.val = { s.val with revokedAt := some now } else s' = s) db.sessions rows) :
    RowsStep db fresh now rows := by
  have hstep : ∀ s s' : SessionRecord, (if which s.val && s.val.revokedAt.isNone then
      s'.val = { s.val with revokedAt := some now } else s' = s) →
      RowStep db fresh now s s' ∧ s'.val.sessionTokenHash = s.val.sessionTokenHash := by
    intro s s' h
    by_cases hwhich : (which s.val && s.val.revokedAt.isNone) = true
    · rw [if_pos hwhich] at h
      rw [Bool.and_eq_true, Option.isNone_iff_eq_none] at hwhich
      exact ⟨.revoked hwhich.2 h, by rw [h]⟩
    · rw [if_neg hwhich] at h
      exact ⟨.same h, by rw [h]⟩
  refine ⟨h.imp fun s s' h => (hstep s s' h).1, ?_⟩
  intro i s s' hs hs' hne
  obtain ⟨hi, rfl⟩ := List.getElem?_eq_some_iff.mp hs
  obtain ⟨hi', rfl⟩ := List.getElem?_eq_some_iff.mp hs'
  exact absurd (hstep _ _ ((List.forall₂_iff_get.mp h).2 i hi hi')).2 hne

/-! ## Effects on the database -/

/-- A session that `create_session` adds. -/
structure Created (backend : Backend) (op : AuthOperation) (db : AuthDatabase) (fresh : String) (now : Instant)
    (s : UserSession) : Prop where
  call : ∃ activeOrgId, op = .createSession s.principalId activeOrgId
  principal : db.principals[s.principalId]?.isSome = true
  /-- PostgreSQL asks that the principal is active. -/
  active : backend = .postgres → db.principalActive s.principalId = true
  bound : ∀ organisationId authVersion, s.active = some (organisationId, authVersion) →
    ∃ m, db.activeMembership organisationId s.principalId = some m ∧ m.authVersion = authVersion
  token : s.sessionTokenHash = fresh
  unused : db.findSession fresh = none
  unrevoked : s.revokedAt = none

inductive Effect (backend : Backend) (op : AuthOperation) (fresh : String) (now : Instant) (db : AuthDatabase) : AuthDatabase → Prop
  | nothing : Effect backend op fresh now db db
  | created (row : SessionRecord) (h : Created backend op db fresh now row.val) :
      Effect backend op fresh now db { db with sessions := db.sessions ++ [row] }
  | sessions (rows : List SessionRecord) (h : RowsStep db fresh now rows) :
      Effect backend op fresh now db { db with sessions := rows }
  | organisation (name : String) (principalId : Nat) (hprincipal : db.principals[principalId]?.isSome = true) :
      Effect backend op fresh now db { db with
        organisations := db.organisations ++ [{ name := name }]
        memberships := db.memberships.insert (db.organisations.length, principalId) { roleCode := .owner } }
  | mutated (organisationId principalId : Nat) (m m' : OrganisationMembership)
      (hm : db.memberships.get? (organisationId, principalId) = some m) (hversion : m'.authVersion = m.authVersion + 1)
      (rows : List SessionRecord) (h : RowsStep db fresh now rows) :
      Effect backend op fresh now db { db with
        memberships := db.memberships.insert (organisationId, principalId) m'
        sessions := rows }
  | invited (row : InvitationRecord) (principalId : Nat)
      (hmember : (db.memberships.get? (row.val.organisationId, principalId)).isSome = true) :
      Effect backend op fresh now db { db with invitations := db.invitations ++ [row] }
  | answered (n : Nat) (i i' : InvitationRecord) (hi : db.invitations[n]? = some i)
      (hsame : i'.val.organisationId = i.val.organisationId) :
      Effect backend op fresh now db { db with invitations := db.invitations.set n i' }
  | accepted (n : Nat) (i i' : InvitationRecord) (principalId : Nat) (hi : db.invitations[n]? = some i)
      (hsame : i'.val.organisationId = i.val.organisationId)
      (hnew : db.memberships.get? (i.val.organisationId, principalId) = none)
      (horganisation : db.organisations[i.val.organisationId]?.isSome = true)
      (hprincipal : db.principals[principalId]?.isSome = true) :
      Effect backend op fresh now db { db with
        invitations := db.invitations.set n i'
        memberships := db.memberships.insert (i.val.organisationId, principalId) { roleCode := i.val.roleCode } }

/-! ### Calls on sessions -/

theorem bindingFor_eq_ok {principalId : Nat} {activeOrgId : Option Nat} {active : Option (Nat × ℕ+)}
    (h : bindingFor backend principalId activeOrgId db = .ok active) :
    (backend = .postgres → db.principalActive principalId = true) ∧
      ∀ organisationId authVersion, active = some (organisationId, authVersion) →
        ∃ m, db.activeMembership organisationId principalId = some m ∧ m.authVersion = authVersion := by
  unfold bindingFor at h
  split at h
  · cases h
  · rename_i hactive
    have hprincipal : backend = .postgres → db.principalActive principalId = true := by
      intro hbackend
      rw [not_and, Bool.not_eq_false] at hactive
      exact hactive hbackend
    refine ⟨hprincipal, ?_⟩
    cases activeOrgId with
    | none =>
        obtain rfl := Except.ok.inj h
        nofun
    | some organisationId =>
        cases hm : db.activeMembership organisationId principalId with
        | none =>
            simp only [hm] at h
            cases h
        | some m =>
            simp only [hm] at h
            split at h
            · cases h
            · obtain rfl := Except.ok.inj h
              intro _ _ heq
              obtain ⟨rfl, rfl⟩ := Prod.mk.inj (Option.some.inj heq)
              exact ⟨m, hm, rfl⟩

theorem createSession_effect {principalId : Nat} {activeOrgId : Option Nat}
    (h : db.createSession backend principalId activeOrgId fresh now = .ok db') :
    ∃ row, Created backend (.createSession principalId activeOrgId) db fresh now row.val ∧
      db' = { db with sessions := db.sessions ++ [row] } := by
  obtain ⟨active, hactive, h⟩ := bind_eq_ok.mp h
  obtain ⟨hpostgres, hbound⟩ := bindingFor_eq_ok hactive
  obtain ⟨hprincipal, h⟩ := bind_unit_eq_ok.mp h
  obtain ⟨hunused, h⟩ := bind_unit_eq_ok.mp h
  rw [refuseIf_eq_ok, Bool.not_eq_true, Option.isNone_eq_false_iff] at hprincipal
  rw [refuseIf_eq_ok, Option.not_isSome_iff_eq_none] at hunused
  obtain ⟨row, hrow, h⟩ := bind_eq_ok.mp h
  have hrow := storeSession_eq_ok.mp hrow
  refine ⟨row, ?_, (Except.ok.inj h).symm⟩
  rw [hrow]
  exact ⟨⟨activeOrgId, rfl⟩, hprincipal, hpostgres, hbound, rfl, hunused, rfl⟩

/-- A touch that writes, and one that does not. -/
theorem touchSessionThrottled_eq_ok {tokenHash : String} {window throttle : ℤ} {wrote : Bool}
    (h : db.touchSessionThrottled backend tokenHash now window throttle = .ok (wrote, db')) :
    (wrote = false ∧ db' = db) ∨
      ∃ i s row, wrote = true ∧ db.findSession tokenHash = some (i, s) ∧ s.val.live now = true ∧
        pastThrottle backend s.val throttle now = true ∧
        row.val = { s.val with
          lastActiveAt := now
          idleExpiresAt := min (now + seconds window) s.val.absoluteExpiresAt } ∧
        db' = { db with sessions := db.sessions.set i row } := by
  unfold touchSessionThrottled at h
  split at h
  · obtain ⟨rfl, rfl⟩ := Prod.mk.inj (Except.ok.inj h)
    exact Or.inl ⟨rfl, rfl⟩
  · rename_i i s hfound
    split at h
    · rename_i hwrites
      rw [Bool.and_eq_true] at hwrites
      obtain ⟨db₁, hupdate, h⟩ := bind_eq_ok.mp h
      obtain ⟨rfl, rfl⟩ := Prod.mk.inj (Except.ok.inj h)
      obtain ⟨_, row, hrow, rfl⟩ := updateSession_eq_ok.mp hupdate
      exact Or.inr ⟨i, s, row, rfl, hfound, hwrites.1, hwrites.2, hrow, rfl⟩
    · obtain ⟨rfl, rfl⟩ := Prod.mk.inj (Except.ok.inj h)
      exact Or.inl ⟨rfl, rfl⟩

theorem switchOrganisation_eq_ok {tokenHash : String} {targetOrgId : Nat} {answer : ℕ+ × Role}
    (h : db.switchOrganisation backend tokenHash targetOrgId fresh now = .ok (answer, db')) :
    ∃ i s m row, db.findSession tokenHash = some (i, s) ∧ s.val.live now = true ∧
      db.activeMembership targetOrgId s.val.principalId = some m ∧ db.tokenTaken fresh i = false ∧
      row.val = { s.val with
        active := some (targetOrgId, m.authVersion)
        sessionTokenHash := fresh
        lastActiveAt := now
        idleExpiresAt := min (now + seconds idleTimeoutSeconds) s.val.absoluteExpiresAt } ∧
      db' = { db with sessions := db.sessions.set i row } := by
  unfold switchOrganisation at h
  split at h
  · cases h
  · rename_i i s hfound
    split at h
    · rename_i hlive
      rw [Bool.and_eq_true] at hlive
      split at h
      · split at h
        · cases h
        · rename_i m hm
          obtain ⟨db₁, hupdate, h⟩ := bind_eq_ok.mp h
          obtain ⟨_, rfl⟩ := Prod.mk.inj (Except.ok.inj h)
          obtain ⟨htaken, row, hrow, rfl⟩ := updateSession_eq_ok.mp hupdate
          exact ⟨i, s, m, row, hfound, hlive.1, hm, htaken, hrow, rfl⟩
      · cases h
    · cases h

theorem revokeSession_eq_ok {tokenHash : String} {revoked : Bool}
    (h : db.revokeSession tokenHash now = .ok (revoked, db')) :
    db' = db ∨ ∃ i s row, db.findSession tokenHash = some (i, s) ∧ s.val.revokedAt = none ∧
      row.val = { s.val with revokedAt := some now } ∧ db' = { db with sessions := db.sessions.set i row } := by
  unfold revokeSession at h
  split at h
  · exact Or.inl (Prod.mk.inj (Except.ok.inj h)).2.symm
  · rename_i i s hfound
    split at h
    · rename_i hunrevoked
      obtain ⟨db₁, hupdate, h⟩ := bind_eq_ok.mp h
      obtain ⟨_, rfl⟩ := Prod.mk.inj (Except.ok.inj h)
      obtain ⟨_, row, hrow, rfl⟩ := updateSession_eq_ok.mp hupdate
      exact Or.inr ⟨i, s, row, hfound, Option.isNone_iff_eq_none.mp hunrevoked, hrow, rfl⟩
    · exact Or.inl (Prod.mk.inj (Except.ok.inj h)).2.symm

/-- What `revoke_all_sessions` does, by what it counts. -/
theorem revokeAllSessions_eq_ok {tokenHash : String} {count : Nat}
    (h : db.revokeAllSessions tokenHash now = .ok (count, db')) :
    (count = 0 ∧ db' = db) ∨
      ∃ i s rows, db.findSession tokenHash = some (i, s) ∧ db' = { db with sessions := rows } ∧
        List.Forall₂ (fun t t' => if t.val.principalId = s.val.principalId && t.val.revokedAt.isNone then
          t'.val = { t.val with revokedAt := some now } else t' = t) db.sessions rows := by
  unfold revokeAllSessions at h
  split at h
  · obtain ⟨rfl, rfl⟩ := Prod.mk.inj (Except.ok.inj h)
    exact Or.inl ⟨rfl, rfl⟩
  · rename_i i s hfound
    split at h
    · obtain ⟨db₁, hrevoke, h⟩ := bind_eq_ok.mp h
      obtain ⟨_, rfl⟩ := Prod.mk.inj (Except.ok.inj h)
      obtain ⟨rows, rfl, hrows⟩ := revokeSessions_eq_ok hrevoke
      exact Or.inr ⟨i, s, rows, hfound, rfl, hrows⟩
    · obtain ⟨rfl, rfl⟩ := Prod.mk.inj (Except.ok.inj h)
      exact Or.inl ⟨rfl, rfl⟩

/-! ### Calls on memberships and invitations -/

theorem activeActor_eq_ok {forbidden : AuthError} {tokenHash : String} {actor : Actor}
    (h : activeActor backend forbidden tokenHash now db = .ok actor) :
    ∃ m, db.activeMembership actor.organisationId actor.principalId = some m ∧ m.roleCode = actor.roleCode := by
  unfold activeActor at h
  split at h
  · cases h
  · split at h
    · cases h
    · split at h
      · split at h
        · cases h
        · cases h
      · rename_i m hm
        obtain rfl := Except.ok.inj h
        exact ⟨m, hm, rfl⟩

/-- What a change of a membership does: the role is one of an owner or an administrator. -/
theorem mutateAs_eq_ok {actor : Actor} {targetPrincipalId : Nat} {newRoleCode newStatus : String}
    {m' : OrganisationMembership} (h : mutateAs actor targetPrincipalId newRoleCode newStatus now db = .ok (m', db')) :
    ∃ m rows, mutationTarget actor targetPrincipalId newRoleCode newStatus db = .ok m ∧
      mutated m newRoleCode newStatus = .ok m' ∧
      List.Forall₂ (fun s s' : SessionRecord =>
        if memberSession targetPrincipalId actor.organisationId s.val && s.val.revokedAt.isNone then
          s'.val = { s.val with revokedAt := some now } else s' = s) db.sessions rows ∧
      db' = { db with
        memberships := db.memberships.insert (actor.organisationId, targetPrincipalId) m'
        sessions := rows } := by
  obtain ⟨m, hm, h⟩ := bind_eq_ok.mp h
  obtain ⟨m₁, hmutated, h⟩ := bind_eq_ok.mp h
  obtain ⟨db₁, hrevoke, h⟩ := bind_eq_ok.mp h
  obtain ⟨rfl, rfl⟩ := Prod.mk.inj (Except.ok.inj h)
  obtain ⟨rows, rfl, hrows⟩ := revokeSessions_eq_ok hrevoke
  exact ⟨m, rows, hm, hmutated, hrows, rfl⟩

theorem get?_of_mutationTarget {actor : Actor} {targetPrincipalId : Nat} {newRoleCode newStatus : String}
    {m : OrganisationMembership} (h : mutationTarget actor targetPrincipalId newRoleCode newStatus db = .ok m) :
    db.memberships.get? (actor.organisationId, targetPrincipalId) = some m := by
  obtain ⟨_, h⟩ := bind_unit_eq_ok.mp h
  obtain ⟨_, h⟩ := bind_unit_eq_ok.mp h
  split at h
  · cases h
  · rename_i target htarget
    split at h
    · cases h
    · split at h
      · cases h
      · rw [htarget, Except.ok.inj h]

theorem mutated_eq_ok {m m' : OrganisationMembership} {newRoleCode newStatus : String}
    (h : mutated m newRoleCode newStatus = .ok m') :
    Role.ofCode? newRoleCode = some m'.roleCode ∧ MembershipStatus.ofCode? newStatus = some m'.status ∧
      m'.authVersion = m.authVersion + 1 := by
  unfold mutated at h
  split at h
  · rename_i hrole hstatus
    obtain rfl := Except.ok.inj h
    exact ⟨hrole, hstatus, rfl⟩
  · cases h
  · cases h

theorem mutateMembership_eq_ok {tokenHash : String} {targetPrincipalId : Nat} {newRoleCode newStatus : String}
    {m' : OrganisationMembership}
    (h : mutateMembership backend tokenHash targetPrincipalId newRoleCode newStatus now db = .ok (m', db')) :
    ∃ actor, mutateAs actor targetPrincipalId newRoleCode newStatus now db = .ok (m', db') := by
  obtain ⟨actor, _, h⟩ := bind_eq_ok.mp h
  exact ⟨actor, h⟩

theorem createOrganisation_eq_ok {tokenHash name : String} {organisationId : Nat}
    (h : createOrganisation tokenHash name now db = .ok (organisationId, db')) :
    ∃ principalId, db.principals[principalId]?.isSome = true ∧ db' = { db with
      organisations := db.organisations ++ [{ name := name }]
      memberships := db.memberships.insert (db.organisations.length, principalId) { roleCode := .owner } } := by
  unfold createOrganisation at h
  split at h
  · cases h
  · rename_i s _
    obtain ⟨db₁, hinsert, h⟩ := bind_eq_ok.mp h
    obtain ⟨_, rfl⟩ := Prod.mk.inj (Except.ok.inj h)
    obtain ⟨_, _, hprincipal, rfl⟩ := insertMembership_eq_ok.mp hinsert
    exact ⟨s.principalId, hprincipal, rfl⟩

theorem createInvitation_eq_ok {tokenHash email roleCode : String} {n : Nat}
    (h : createInvitation L backend tokenHash email roleCode fresh now db = .ok (n, db')) :
    ∃ (row : InvitationRecord) (principalId : Nat),
      (db.memberships.get? (row.val.organisationId, principalId)).isSome = true ∧
        db' = { db with invitations := db.invitations ++ [row] } := by
  obtain ⟨actor, hactor, h⟩ := bind_eq_ok.mp h
  obtain ⟨m, hm, _⟩ := activeActor_eq_ok hactor
  obtain ⟨_, h⟩ := bind_unit_eq_ok.mp h
  obtain ⟨_, h⟩ := bind_unit_eq_ok.mp h
  obtain ⟨_, h⟩ := bind_unit_eq_ok.mp h
  obtain ⟨_, h⟩ := bind_unit_eq_ok.mp h
  obtain ⟨_, h⟩ := bind_unit_eq_ok.mp h
  obtain ⟨_, h⟩ := bind_unit_eq_ok.mp h
  split at h
  · cases h
  · obtain ⟨row, hrow, h⟩ := bind_eq_ok.mp h
    have hrow := storeInvitation_eq_ok.mp hrow
    refine ⟨row, actor.principalId, ?_, (Prod.mk.inj (Except.ok.inj h)).2.symm⟩
    rw [hrow, (activeMembership_eq_some.mp hm).1]
    rfl

theorem acceptInvitation_eq_ok {tokenHash invitationTokenHash : String} {answer : Nat × Role}
    (h : acceptInvitation L backend tokenHash invitationTokenHash now db = .ok (answer, db')) :
    ∃ s n i i', db.caller tokenHash now = some s ∧ db.findInvitation invitationTokenHash = some (n, i) ∧
      i'.val = { i.val with status := .accepted, acceptedAt := some now } ∧
      db.memberships.get? (i.val.organisationId, s.principalId) = none ∧
      db.organisations[i.val.organisationId]?.isSome = true ∧ db.principals[s.principalId]?.isSome = true ∧
      answer = (i.val.organisationId, i.val.roleCode) ∧ db' = { db with
        invitations := db.invitations.set n i'
        memberships := db.memberships.insert (i.val.organisationId, s.principalId) { roleCode := i.val.roleCode } } := by
  unfold acceptInvitation at h
  split at h
  · cases h
  · rename_i s hcaller
    split at h
    · cases h
    · split at h
      · cases h
      · rename_i n i hfound
        split at h
        · cases h
        · split at h
          · cases h
          · obtain ⟨db₁, hupdate, h⟩ := bind_eq_ok.mp h
            obtain ⟨db₂, hinsert, h⟩ := bind_eq_ok.mp h
            obtain ⟨rfl, rfl⟩ := Prod.mk.inj (Except.ok.inj h)
            obtain ⟨i', hi', rfl⟩ := updateInvitation_eq_ok.mp hupdate
            obtain ⟨hnew, horganisation, hprincipal, rfl⟩ := insertMembership_eq_ok.mp hinsert
            exact ⟨s, n, i, i', hcaller, hfound, hi', hnew, horganisation, hprincipal, rfl, rfl⟩

theorem revokeInvitation_eq_ok {tokenHash : String} {n : Nat} {revoked : Bool}
    (h : revokeInvitation backend tokenHash n now db = .ok (revoked, db')) :
    db' = db ∨ ∃ i i', db.invitations[n]? = some i ∧
      i'.val = { i.val with status := .revoked, revokedAt := some now } ∧
      db' = { db with invitations := db.invitations.set n i' } := by
  obtain ⟨actor, _, h⟩ := bind_eq_ok.mp h
  obtain ⟨_, h⟩ := bind_unit_eq_ok.mp h
  split at h
  · exact Or.inl (Prod.mk.inj (Except.ok.inj h)).2.symm
  · rename_i i hi
    split at h
    · obtain ⟨db₁, hupdate, h⟩ := bind_eq_ok.mp h
      obtain ⟨_, rfl⟩ := Prod.mk.inj (Except.ok.inj h)
      obtain ⟨i', hi', rfl⟩ := updateInvitation_eq_ok.mp hupdate
      exact Or.inr ⟨i, i', hi, hi', rfl⟩
    · exact Or.inl (Prod.mk.inj (Except.ok.inj h)).2.symm

/-- **Every call that succeeds has one of the effects.** -/
theorem perform_effect {op : AuthOperation} (h : db.perform L backend fresh now op = .ok db') :
    Effect backend op fresh now db db' := by
  cases op with
  | createSession principalId activeOrgId =>
      obtain ⟨row, hrow, rfl⟩ := createSession_effect h
      exact .created row hrow
  | lookupSession tokenHash =>
      obtain rfl := Except.ok.inj h
      exact .nothing
  | touchSession tokenHash window throttle =>
      obtain ⟨⟨wrote, db₁⟩, hcall, rfl⟩ := map_eq_ok.mp h
      rcases touchSessionThrottled_eq_ok hcall with ⟨_, rfl⟩ | ⟨i, s, row, _, hfound, hlive, _, hrow, rfl⟩
      · exact .nothing
      · exact .sessions _ (rowsStep_set (findSession_eq_some hfound).1 (.touched window hlive hrow)
          fun hne => absurd (by rw [hrow]) hne)
  | switchOrganisation tokenHash targetOrgId =>
      obtain ⟨⟨answer, db₁⟩, hcall, rfl⟩ := map_eq_ok.mp h
      obtain ⟨i, s, m, row, hfound, hlive, hm, htaken, hrow, rfl⟩ := switchOrganisation_eq_ok hcall
      exact .sessions _ (rowsStep_set (findSession_eq_some hfound).1 (.rebound targetOrgId m hlive hm hrow)
        fun _ => htaken)
  | revokeSession tokenHash =>
      obtain ⟨⟨revoked, db₁⟩, hcall, rfl⟩ := map_eq_ok.mp h
      rcases revokeSession_eq_ok hcall with rfl | ⟨i, s, row, hfound, hunrevoked, hrow, rfl⟩
      · exact .nothing
      · exact .sessions _ (rowsStep_set (findSession_eq_some hfound).1 (.revoked hunrevoked hrow)
          fun hne => absurd (by rw [hrow]) hne)
  | revokeAllSessions tokenHash =>
      obtain ⟨⟨count, db₁⟩, hcall, rfl⟩ := map_eq_ok.mp h
      rcases revokeAllSessions_eq_ok hcall with ⟨_, rfl⟩ | ⟨i, s, rows, _, rfl, hrows⟩
      · exact .nothing
      · exact .sessions rows (rowsStep_revoke (fun t => t.principalId = s.val.principalId) hrows)
  | createOrganisation tokenHash name =>
      obtain ⟨⟨organisationId, db₁⟩, hcall, rfl⟩ := map_eq_ok.mp h
      obtain ⟨principalId, hprincipal, rfl⟩ := createOrganisation_eq_ok hcall
      exact .organisation name principalId hprincipal
  | mutateMembership tokenHash targetPrincipalId newRoleCode newStatus =>
      obtain ⟨⟨m', db₁⟩, hcall, rfl⟩ := map_eq_ok.mp h
      obtain ⟨actor, hcall⟩ := mutateMembership_eq_ok hcall
      obtain ⟨m, rows, htarget, hmutated, hrows, rfl⟩ := mutateAs_eq_ok hcall
      exact .mutated actor.organisationId targetPrincipalId m m' (get?_of_mutationTarget htarget)
        (mutated_eq_ok hmutated).2.2 rows (rowsStep_revoke _ hrows)
  | createInvitation tokenHash email roleCode =>
      obtain ⟨⟨n, db₁⟩, hcall, rfl⟩ := map_eq_ok.mp h
      obtain ⟨row, principalId, hmember, rfl⟩ := createInvitation_eq_ok hcall
      exact .invited row principalId hmember
  | acceptInvitation tokenHash invitationTokenHash =>
      obtain ⟨⟨answer, db₁⟩, hcall, rfl⟩ := map_eq_ok.mp h
      obtain ⟨s, n, i, i', _, hfound, hi', hnew, horganisation, hprincipal, _, rfl⟩ := acceptInvitation_eq_ok hcall
      exact .accepted n i i' s.principalId (findInvitation_eq_some hfound) (by rw [hi']) hnew horganisation hprincipal
  | revokeInvitation tokenHash n =>
      obtain ⟨⟨revoked, db₁⟩, hcall, rfl⟩ := map_eq_ok.mp h
      rcases revokeInvitation_eq_ok hcall with rfl | ⟨i, i', hi, hi', rfl⟩
      · exact .nothing
      · exact .answered n i i' hi (by rw [hi'])

/-! ## Foreign keys of organisations -/

/-- Memberships and invitations are of organisations that exist. -/
structure Grounded (db : AuthDatabase) : Prop where
  memberships : ∀ k m, db.memberships.get? k = some m → db.organisations[k.1]?.isSome = true
  invitations : ∀ i ∈ db.invitations, db.organisations[i.val.organisationId]?.isSome = true

theorem isSome_append {α : Type} {l : List α} {i : Nat} (h : l[i]?.isSome = true) (more : List α) :
    (l ++ more)[i]?.isSome = true := by
  obtain ⟨a, ha⟩ := Option.isSome_iff_exists.mp h
  rw [List.getElem?_append_left (List.getElem?_eq_some_iff.mp ha).1]
  exact h

theorem Grounded.insert {organisationId principalId : Nat} {m : OrganisationMembership} (hdb : db.Grounded)
    (h : db.organisations[organisationId]?.isSome = true) :
    ∀ k m', (db.memberships.insert (organisationId, principalId) m).get? k = some m' →
      db.organisations[k.1]?.isSome = true := by
  intro k m' hk
  rw [Dict.get?_insert] at hk
  split at hk
  · rename_i heq
    rw [heq]
    exact h
  · exact hdb.memberships k m' hk

theorem Grounded.set {n : Nat} {i i' : InvitationRecord} (hdb : db.Grounded) (hi : db.invitations[n]? = some i)
    (hsame : i'.val.organisationId = i.val.organisationId) :
    ∀ j ∈ db.invitations.set n i', db.organisations[j.val.organisationId]?.isSome = true := by
  intro j hj
  rcases List.mem_or_eq_of_mem_set hj with hj | rfl
  · exact hdb.invitations j hj
  · rw [hsame]
    exact hdb.invitations i (List.mem_of_getElem? hi)

theorem Grounded.effect (hdb : db.Grounded) (h : Effect backend op fresh now db db') : db'.Grounded := by
  cases h with
  | nothing => exact hdb
  | created row _ => exact ⟨hdb.memberships, hdb.invitations⟩
  | sessions rows _ => exact ⟨hdb.memberships, hdb.invitations⟩
  | organisation name principalId _ =>
      refine ⟨?_, fun i hi => isSome_append (hdb.invitations i hi) _⟩
      intro k m' hk
      rw [Dict.get?_insert] at hk
      split at hk
      · rename_i heq
        rw [heq, List.getElem?_concat_length]
        rfl
      · exact isSome_append (hdb.memberships k m' hk) _
  | mutated organisationId principalId m m' hm _ rows _ =>
      exact ⟨hdb.insert (hdb.memberships (organisationId, principalId) m hm), hdb.invitations⟩
  | invited row principalId hmember =>
      refine ⟨hdb.memberships, fun i hi => ?_⟩
      rcases List.mem_append.mp hi with hi | hi
      · exact hdb.invitations i hi
      · obtain ⟨m, hm⟩ := Option.isSome_iff_exists.mp hmember
        rw [List.mem_singleton.mp hi]
        exact hdb.memberships (row.val.organisationId, principalId) m hm
  | answered n i i' hi hsame => exact ⟨hdb.memberships, hdb.set hi hsame⟩
  | accepted n i i' principalId hi hsame _ horganisation _ => exact ⟨hdb.insert horganisation, hdb.set hi hsame⟩

end AuthDatabase

open AuthDatabase

/-- The effect of a call; one that raises has none. -/
theorem AuthState.step_effect (L : Letters) (tokens : Nat → String) (backend : Backend) (σ : AuthState)
    (call : Nat × AuthOperation) :
    Effect backend call.2 (tokens σ.generated) (σ.clock + call.1) σ.db (σ.step L tokens backend call).db := by
  show Effect backend call.2 (tokens σ.generated) (σ.clock + call.1) σ.db
    ((σ.db.perform L backend (tokens σ.generated) (σ.clock + call.1) call.2).toOption.getD σ.db)
  cases h : σ.db.perform L backend (tokens σ.generated) (σ.clock + call.1) call.2 with
  | error e => exact .nothing
  | ok db => exact perform_effect h

theorem grounded_of_reachable {principals : List Principal} {clock : Instant} {σ : AuthState}
    (h : Reachable (AuthState.step L tokens backend) (AuthState.initial principals clock) σ) : σ.db.Grounded := by
  apply h.invariant (I := fun σ => σ.db.Grounded)
  · intro σ call hσ
    exact hσ.effect (σ.step_effect L tokens backend call)
  · exact ⟨nofun, nofun⟩

end Untangle
