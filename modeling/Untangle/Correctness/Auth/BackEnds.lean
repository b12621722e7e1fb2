import Untangle.Correctness.Auth.Shrinking

/-!
# `Correctness.Auth.BackEnds` — where the fallback on SQLite authorises what PostgreSQL does not

Each call is written twice. What it takes for a call to be accepted is stated once here, with the back end as a
parameter (`touch_iff` to `mutateMembership_iff`), so a call is answered alike unless it meets one of the conditions
that only one back end has: these are the constructors of `Splits` (`alike_iff`).
-/

namespace Untangle

open Lib AuthDatabase

variable {L : Letters} {backend : Backend} {db db' : AuthDatabase} {now : Instant}

/-! ## What two back ends are compared by -/

/-- A call that a back end accepts or rejects, with the token that a new row is given. -/
inductive GuardedCall
  | lookupSession (tokenHash : String)
  | touchSession (tokenHash : String) (idleWindowSeconds throttleSeconds : ℤ)
  | switchOrganisation (tokenHash : String) (targetOrgId : Nat) (newTokenHash : String)
  | createInvitation (tokenHash email roleCode invitationTokenHash : String)
  | acceptInvitation (tokenHash invitationTokenHash : String)
  | mutateMembership (tokenHash : String) (targetPrincipalId : Nat) (newRoleCode newStatus : String)

/-- What a call that is accepted returns of the role, the staleness and the expiry, and the rows that it leaves. -/
structure Answer where
  role : Option Role := none
  isStale : Bool := false
  expiry : Option (Instant × Instant) := none
  sessions : List SessionRecord
  memberships : Dict (Nat × Nat) OrganisationMembership
  invitations : List InvitationRecord

/-- The rows of a database, with what is returned. -/
def AuthDatabase.answering (db : AuthDatabase) (role : Option Role) (isStale : Bool)
    (expiry : Option (Instant × Instant)) : Answer where
  role := role
  isStale := isStale
  expiry := expiry
  sessions := db.sessions
  memberships := db.memberships
  invitations := db.invitations

section Answers

variable (L) (backend) (now : Instant) (db : AuthDatabase)

/-- The answer to a call that is accepted. -/
def GuardedCall.answer : GuardedCall → Option Answer
  | .lookupSession tokenHash =>
    (db.lookupSession backend tokenHash now).map fun info =>
      db.answering info.activeRoleCode info.isStale (some (info.idleExpiresAt, info.absoluteExpiresAt))
  | .touchSession tokenHash idleWindowSeconds throttleSeconds =>
    (db.touchSessionThrottled backend tokenHash now idleWindowSeconds throttleSeconds).toOption.bind fun p =>
      if p.1 then some (p.2.answering none false none) else none
  | .switchOrganisation tokenHash targetOrgId newTokenHash =>
    (db.switchOrganisation backend tokenHash targetOrgId newTokenHash now).toOption.map fun p =>
      p.2.answering (some p.1.2) false none
  | .createInvitation tokenHash email roleCode invitationTokenHash =>
    (db.createInvitation L backend tokenHash email roleCode invitationTokenHash now).toOption.map fun p =>
      p.2.answering none false none
  | .acceptInvitation tokenHash invitationTokenHash =>
    (db.acceptInvitation L backend tokenHash invitationTokenHash now).toOption.map fun p =>
      p.2.answering (some p.1.2) false none
  | .mutateMembership tokenHash targetPrincipalId newRoleCode newStatus =>
    (db.mutateMembership backend tokenHash targetPrincipalId newRoleCode newStatus now).toOption.map fun p =>
      p.2.answering (some p.1.roleCode) false none

end Answers

/-- Both back ends reject a call, or both accept it with the same answer. -/
def Alike (L : Letters) (now : Instant) (db : AuthDatabase) (call : GuardedCall) : Prop :=
  call.answer L .postgres now db = call.answer L .sqlite now db

/-! ## What splits them -/

/-- Whether an invitation of an e-mail address is refused because of the address. -/
def refusesEmail (L : Letters) (backend : Backend) (organisationId : Nat) (email : String) (db : AuthDatabase) : Bool :=
  alreadyMember L backend organisationId email db ||
    alreadyPending L backend organisationId (normEmail L backend email) db

/-- Someone with an active membership in the organisation of a valid session, which may be stale. -/
structure ActsIn (db : AuthDatabase) (now : Instant) (tokenHash : String) (s : UserSession) (organisationId : Nat)
    (authVersion : ℕ+) (m : OrganisationMembership) : Prop where
  caller : db.caller tokenHash now = some s
  active : s.active = some (organisationId, authVersion)
  membership : db.activeMembership organisationId s.principalId = some m

/-- The change of a membership that a member with a role may make. -/
structure MayMutate (db : AuthDatabase) (now : Instant) (organisationId principalId : Nat) (role : Role)
    (targetPrincipalId : Nat) (newRoleCode newStatus : String) : Prop where
  manages : mayManage role = true
  another : principalId ≠ targetPrincipalId
  target : ∃ target, db.memberships.get? (organisationId, targetPrincipalId) = some target ∧
    ¬ (role = .admin ∧ (target.roleCode = .owner ∨ newRoleCode = Role.owner.code)) ∧
    ¬ (demotes target newRoleCode newStatus = true ∧ db.activeOwners organisationId ≤ 1)
  role : (Role.ofCode? newRoleCode).isSome = true
  status : (MembershipStatus.ofCode? newStatus).isSome = true
  /-- The member's sessions can be revoked at the time. -/
  revocable : ∀ s ∈ db.sessions, memberSession targetPrincipalId organisationId s.val = true →
    s.val.revokedAt = none → s.val.createdAt ≤ now

/-- The calls that the back ends do not answer alike. -/
inductive Splits (L : Letters) (now : Instant) (db : AuthDatabase) : GuardedCall → Prop
  /-- PostgreSQL gives the role of a stale session. -/
  | staleRole {tokenHash : String} {i : Nat} {s : SessionRecord} {p : Principal} {organisationId : Nat}
      {authVersion : ℕ+} {o : Organisation} {m : OrganisationMembership}
      (hfound : db.findSession tokenHash = some (i, s)) (hp : db.principals[s.val.principalId]? = some p)
      (hactive : s.val.active = some (organisationId, authVersion))
      (ho : db.organisations[organisationId]? = some o)
      (hm : db.memberships.get? (organisationId, s.val.principalId) = some m)
      (houtdated : outdated o m authVersion = true) : Splits L now db (.lookupSession tokenHash)
  /-- SQLite touches a session at the very throttle. -/
  | atThrottle {tokenHash : String} {idleWindowSeconds throttleSeconds : ℤ} {i : Nat} {s : SessionRecord}
      (hfound : db.findSession tokenHash = some (i, s)) (hlive : s.val.live now = true)
      (hwindow : 0 ≤ idleWindowSeconds) (hthrottle : s.val.lastActiveAt = now - seconds throttleSeconds) :
      Splits L now db (.touchSession tokenHash idleWindowSeconds throttleSeconds)
  /-- SQLite switches the session of an inactive principal. -/
  | inactivePrincipal {tokenHash newTokenHash : String} {targetOrgId i : Nat} {s : SessionRecord}
      {m : OrganisationMembership} (hfound : db.findSession tokenHash = some (i, s))
      (hlive : s.val.live now = true) (hinactive : db.principalActive s.val.principalId = false)
      (horganisation : db.organisationActive targetOrgId = true)
      (hm : db.activeMembership targetOrgId s.val.principalId = some m)
      (hnew : db.tokenTaken newTokenHash i = false) :
      Splits L now db (.switchOrganisation tokenHash targetOrgId newTokenHash)
  /-- An address is known to one of them only, or they store it in two ways. -/
  | emails {tokenHash email roleCode invitationTokenHash : String} {s : UserSession} {organisationId : Nat}
      {authVersion : ℕ+} {m : OrganisationMembership} (hactor : ActsIn db now tokenHash s organisationId authVersion m)
      (hmanages : mayManage m.roleCode = true) (howner : ¬ (m.roleCode = .admin ∧ roleCode = Role.owner.code))
      (hrole : (Role.ofCode? roleCode).isSome = true) (hnew : db.findInvitation invitationTokenHash = none)
      (hemails : refusesEmail L .postgres organisationId email db ≠ refusesEmail L .sqlite organisationId email db ∨
        (refusesEmail L .postgres organisationId email db = false ∧
          normEmail L .postgres email ≠ normEmail L .sqlite email)) :
      Splits L now db (.createInvitation tokenHash email roleCode invitationTokenHash)
  /-- Two addresses are the same to one of them only. -/
  | addresses {tokenHash invitationTokenHash : String} {s : UserSession} {p : Principal} {n : Nat}
      {i : InvitationRecord} (hcaller : db.caller tokenHash now = some s) (hp : db.principals[s.principalId]? = some p)
      (hfound : db.findInvitation invitationTokenHash = some (n, i)) (hpending : i.val.status = .pending)
      (hunexpired : now < i.val.expiresAt)
      (hnew : db.memberships.get? (i.val.organisationId, s.principalId) = none)
      (horganisation : db.organisations[i.val.organisationId]?.isSome = true)
      (haddresses : ¬ (normEmail L .postgres p.email = normEmail L .postgres i.val.email ↔
        normEmail L .sqlite p.email = normEmail L .sqlite i.val.email)) :
      Splits L now db (.acceptInvitation tokenHash invitationTokenHash)
  /-- SQLite lets a stale session, or one of an inactive organisation, change a membership. -/
  | staleActor {tokenHash : String} {targetPrincipalId : Nat} {newRoleCode newStatus : String} {s : UserSession}
      {organisationId : Nat} {authVersion : ℕ+} {m : OrganisationMembership}
      (hactor : ActsIn db now tokenHash s organisationId authVersion m)
      (hstale : ¬ (db.organisationActive organisationId = true ∧ m.authVersion = authVersion))
      (hallowed : MayMutate db now organisationId s.principalId m.roleCode targetPrincipalId newRoleCode newStatus) :
      Splits L now db (.mutateMembership tokenHash targetPrincipalId newRoleCode newStatus)

/-! ## When a call is accepted -/

namespace AuthDatabase

/-- No other session has the token of a session. -/
theorem not_tokenTaken_of_distinct (hdb : DistinctTokens db) {i : Nat} {s : SessionRecord}
    (hs : db.sessions[i]? = some s) : db.tokenTaken s.val.sessionTokenHash i = false := by
  unfold tokenTaken
  rw [List.any_eq_false]
  rintro ⟨t, j⟩ ht
  rw [Bool.and_eq_true, decide_eq_true_eq, decide_eq_true_eq, not_and_not_right]
  exact fun htoken => hdb j i t s (List.mem_zipIdx_iff_getElem?.mp ht) hs htoken

/-- The row of a session that is live after activity in it. -/
theorem check_of_live {s : UserSession} (hlive : s.live now = true) (active : Option (Nat × ℕ+)) (tokenHash : String)
    (window : ℤ) :
    ({ s with
        active := active
        sessionTokenHash := tokenHash
        lastActiveAt := now
        idleExpiresAt := min (now + seconds window) s.absoluteExpiresAt } : UserSession).check = true ↔ 0 ≤ window := by
  obtain ⟨hrevoked, habsolute, _⟩ := UserSession.live_iff.mp hlive
  have hseconds : now ≤ now + seconds window ↔ 0 ≤ window := by
    show now ≤ now + window * 1000000 ↔ 0 ≤ window
    constructor <;> intro h <;> linarith
  simp only [UserSession.check, hrevoked, Option.all_none, Bool.and_true, Bool.and_eq_true, decide_eq_true_eq,
    min_le_right, and_true, le_min_iff, habsolute.le, hseconds]

theorem touch_iff (hdb : DistinctTokens db) {tokenHash : String} {window throttle : ℤ} :
    db.touchSessionThrottled backend tokenHash now window throttle = .ok (true, db') ↔
      ∃ i s row, db.findSession tokenHash = some (i, s) ∧ s.val.live now = true ∧ 0 ≤ window ∧
        pastThrottle backend s.val throttle now = true ∧
        row.val = { s.val with
          lastActiveAt := now
          idleExpiresAt := min (now + seconds window) s.val.absoluteExpiresAt } ∧
        db' = { db with sessions := db.sessions.set i row } := by
  constructor
  · intro h
    rcases touchSessionThrottled_eq_ok h with ⟨hwrote, _⟩ | ⟨i, s, row, _, hfound, hlive, hpast, hrow, hdb'⟩
    · cases hwrote
    · have hcheck := row.property
      rw [hrow] at hcheck
      exact ⟨i, s, row, hfound, hlive, (check_of_live hlive _ _ window).mp hcheck, hpast, hrow, hdb'⟩
  · rintro ⟨i, s, row, hfound, hlive, hwindow, hpast, hrow, rfl⟩
    unfold touchSessionThrottled
    simp only [hfound, hlive, hpast, Bool.and_self, if_true]
    refine bind_eq_ok.mpr ⟨_, updateSession_eq_ok.mpr ⟨?_, row, hrow, rfl⟩, rfl⟩
    exact not_tokenTaken_of_distinct hdb (findSession_eq_some hfound).1

theorem switch_iff {tokenHash fresh : String} {targetOrgId : Nat} {answer : ℕ+ × Role} :
    db.switchOrganisation backend tokenHash targetOrgId fresh now = .ok (answer, db') ↔
      ∃ i s m row, db.findSession tokenHash = some (i, s) ∧ s.val.live now = true ∧
        (backend = .sqlite ∨ db.principalActive s.val.principalId = true) ∧ db.organisationActive targetOrgId = true ∧
        db.activeMembership targetOrgId s.val.principalId = some m ∧ db.tokenTaken fresh i = false ∧
        row.val = { s.val with
          active := some (targetOrgId, m.authVersion)
          sessionTokenHash := fresh
          lastActiveAt := now
          idleExpiresAt := min (now + seconds idleTimeoutSeconds) s.val.absoluteExpiresAt } ∧
        answer = (m.authVersion, m.roleCode) ∧ db' = { db with sessions := db.sessions.set i row } := by
  constructor
  · intro h
    obtain ⟨i, s, m, row, hfound, hlive, hm, htaken, hrow, rfl⟩ := switchOrganisation_eq_ok h
    unfold switchOrganisation at h
    simp only [hfound, hm] at h
    split at h
    · rename_i hprincipal
      rw [Bool.and_eq_true, Bool.or_eq_true, decide_eq_true_eq] at hprincipal
      split at h
      · rename_i horganisation
        obtain ⟨_, _, h⟩ := bind_eq_ok.mp h
        exact ⟨i, s, m, row, hfound, hlive, hprincipal.2, horganisation, hm, htaken, hrow,
          (Prod.mk.inj (Except.ok.inj h)).1.symm, rfl⟩
      · cases h
    · cases h
  · rintro ⟨i, s, m, row, hfound, hlive, hprincipal, horganisation, hm, htaken, hrow, rfl, rfl⟩
    unfold switchOrganisation
    simp only [hfound, hlive, hm, horganisation, Bool.true_and, Bool.or_eq_true, decide_eq_true_eq, if_pos hprincipal,
      if_true]
    exact bind_eq_ok.mpr ⟨_, updateSession_eq_ok.mpr ⟨htaken, row, hrow, rfl⟩, rfl⟩

theorem activeActor_iff {forbidden : AuthError} {tokenHash : String} {actor : Actor} :
    activeActor backend forbidden tokenHash now db = .ok actor ↔
      ∃ s organisationId authVersion m, ActsIn db now tokenHash s organisationId authVersion m ∧
        actor = ⟨organisationId, s.principalId, m.roleCode⟩ := by
  unfold activeActor
  constructor
  · intro h
    split at h
    · cases h
    · rename_i s hcaller
      split at h
      · cases h
      · rename_i organisationId authVersion hactive
        split at h
        · split at h
          · cases h
          · cases h
        · rename_i m hm
          exact ⟨s, organisationId, authVersion, m, ⟨hcaller, hactive, hm⟩, (Except.ok.inj h).symm⟩
  · rintro ⟨s, organisationId, authVersion, m, hactor, rfl⟩
    simp only [hactor.caller, hactor.active, hactor.membership]

/-- The actor of PostgreSQL is one of the fallback whose session is not stale. -/
theorem currentActor_iff {tokenHash : String} {actor : Actor} :
    currentActor tokenHash now db = .ok actor ↔
      ∃ s organisationId authVersion m, ActsIn db now tokenHash s organisationId authVersion m ∧
        (db.organisationActive organisationId = true ∧ m.authVersion = authVersion) ∧
        actor = ⟨organisationId, s.principalId, m.roleCode⟩ := by
  unfold currentActor
  constructor
  · intro h
    split at h
    · cases h
    · rename_i organisationId authVersion hbound
      split at h
      · cases h
      · rename_i s hcaller
        split at h
        · cases h
        · rename_i m hm
          split at h
          · rename_i hcurrent
            rw [Bool.and_eq_true, decide_eq_true_eq] at hcurrent
            obtain ⟨i, row, hfound, rfl, _⟩ := caller_eq_some hcaller
            rw [hfound, Option.bind_some] at hbound
            exact ⟨row.val, organisationId, authVersion, m, ⟨hcaller, hbound, hm⟩, hcurrent, (Except.ok.inj h).symm⟩
          · cases h
  · rintro ⟨s, organisationId, authVersion, m, hactor, ⟨horganisation, hversion⟩, rfl⟩
    obtain ⟨i, row, hfound, rfl, _⟩ := caller_eq_some hactor.caller
    simp only [hfound, Option.bind_some, hactor.active, hactor.caller, hactor.membership, horganisation, hversion,
      decide_true, Bool.and_self, if_true]

/-- A new invitation satisfies its CHECK constraints. -/
theorem check_of_new (now : Instant) (organisationId principalId : Nat) (email : String) (role : Role)
    (tokenHash : String) :
    ({ organisationId := organisationId
       invitedByPrincipalId := principalId
       email := email
       roleCode := role
       tokenHash := tokenHash
       expiresAt := now + seconds (invitationTtlDays * 86400)
       createdAt := now } : OrganisationInvitation).check = true := by
  have hlater : now < now + seconds (invitationTtlDays * 86400) := lt_add_of_pos_right now (by decide)
  simp [OrganisationInvitation.check, OrganisationInvitation.lifecycle, hlater]

/-- The row of an invitation that an actor makes. -/
def newInvitation (L : Letters) (backend : Backend) (now : Instant) (organisationId principalId : Nat) (email : String)
    (role : Role) (tokenHash : String) : InvitationRecord :=
  ⟨_, check_of_new now organisationId principalId (normEmail L backend email) role tokenHash⟩

theorem createInvitation_iff {tokenHash email roleCode fresh : String} {n : Nat} :
    createInvitation L backend tokenHash email roleCode fresh now db = .ok (n, db') ↔
      ∃ s organisationId authVersion m role, ActsIn db now tokenHash s organisationId authVersion m ∧
        mayManage m.roleCode = true ∧ ¬ (m.roleCode = .admin ∧ roleCode = Role.owner.code) ∧
        Role.ofCode? roleCode = some role ∧ db.findInvitation fresh = none ∧
        refusesEmail L backend organisationId email db = false ∧ n = db.invitations.length ∧
        db' = { db with invitations := db.invitations ++
          [newInvitation L backend now organisationId s.principalId email role fresh] } := by
  have hstore : ∀ organisationId principalId role, storeInvitation
      (newInvitation L backend now organisationId principalId email role fresh).val =
        .ok (newInvitation L backend now organisationId principalId email role fresh) :=
    fun _ _ _ => storeInvitation_eq_ok.mpr rfl
  unfold createInvitation
  simp only [bind_eq_ok (x := activeActor _ _ _ _ _), activeActor_iff, bind_unit_eq_ok, refuseIf_eq_ok]
  constructor
  · rintro ⟨_, ⟨s, organisationId, authVersion, m, hactor, rfl⟩, hmanages, howner, hrole, hmember, hpending, hnew, h⟩
    split at h
    · cases h
    · rename_i role hcode
      obtain ⟨row, hrow, h⟩ := bind_eq_ok.mp h
      obtain ⟨rfl, rfl⟩ := Prod.mk.inj (Except.ok.inj h)
      obtain rfl := Except.ok.inj ((hstore organisationId s.principalId role).symm.trans hrow)
      refine ⟨s, organisationId, authVersion, m, role, hactor, by simpa using hmanages, howner, hcode, ?_, ?_, rfl, rfl⟩
      · simpa using hnew
      · simp only [refusesEmail, Bool.or_eq_false_iff]
        exact ⟨by simpa using hmember, by simpa using hpending⟩
  · rintro ⟨s, organisationId, authVersion, m, role, hactor, hmanages, howner, hcode, hnew, hemail, rfl, rfl⟩
    simp only [refusesEmail, Bool.or_eq_false_iff] at hemail
    refine ⟨_, ⟨s, organisationId, authVersion, m, hactor, rfl⟩, by simpa using hmanages, howner, by simp [hcode],
      by simp [hemail.1], by simp [hemail.2], by simp [hnew], ?_⟩
    simp only [hcode]
    exact bind_eq_ok.mpr ⟨_, hstore organisationId s.principalId role, rfl⟩

theorem acceptInvitation_iff {tokenHash invitationTokenHash : String} {answer : Nat × Role} :
    acceptInvitation L backend tokenHash invitationTokenHash now db = .ok (answer, db') ↔
      ∃ s p n i i', db.caller tokenHash now = some s ∧ db.principals[s.principalId]? = some p ∧
        db.findInvitation invitationTokenHash = some (n, i) ∧ i.val.status = .pending ∧ now < i.val.expiresAt ∧
        normEmail L backend p.email = normEmail L backend i.val.email ∧
        db.memberships.get? (i.val.organisationId, s.principalId) = none ∧
        db.organisations[i.val.organisationId]?.isSome = true ∧
        i'.val = { i.val with status := .accepted, acceptedAt := some now } ∧
        answer = (i.val.organisationId, i.val.roleCode) ∧ db' = { db with
          invitations := db.invitations.set n i'
          memberships :=
            db.memberships.insert (i.val.organisationId, s.principalId) { roleCode := i.val.roleCode } } := by
  constructor
  · intro h
    obtain ⟨s, n, i, i', hcaller, hfound, hi', hnew, horganisation, hprincipal, hanswer, hdb'⟩ :=
      acceptInvitation_eq_ok h
    obtain ⟨p, hp⟩ := Option.isSome_iff_exists.mp hprincipal
    unfold acceptInvitation at h
    simp only [hcaller, hp, hfound] at h
    split at h
    · cases h
    · rename_i hopen
      rw [not_or, not_not, not_le] at hopen
      split at h
      · cases h
      · rename_i hemail
        exact ⟨s, p, n, i, i', hcaller, hp, hfound, hopen.1, hopen.2, not_not.mp hemail, hnew, horganisation, hi',
          hanswer, hdb'⟩
  · rintro ⟨s, p, n, i, i', hcaller, hp, hfound, hpending, hunexpired, hemail, hnew, horganisation, hi', rfl, rfl⟩
    rw [acceptInvitation_of_open hcaller hp hfound hpending hunexpired hemail]
    refine bind_eq_ok.mpr ⟨_, updateInvitation_eq_ok.mpr ⟨i', hi', rfl⟩, bind_eq_ok.mpr ⟨_, ?_, rfl⟩⟩
    exact insertMembership_eq_ok.mpr ⟨hnew, horganisation, Option.isSome_iff_exists.mpr ⟨p, hp⟩, rfl⟩

theorem mutationTarget_iff {actor : Actor} {targetPrincipalId : Nat} {newRoleCode newStatus : String}
    {target : OrganisationMembership} :
    mutationTarget actor targetPrincipalId newRoleCode newStatus db = .ok target ↔
      mayManage actor.roleCode = true ∧ actor.principalId ≠ targetPrincipalId ∧
        db.memberships.get? (actor.organisationId, targetPrincipalId) = some target ∧
        ¬ (actor.roleCode = .admin ∧ (target.roleCode = .owner ∨ newRoleCode = Role.owner.code)) ∧
        ¬ (demotes target newRoleCode newStatus = true ∧ db.activeOwners actor.organisationId ≤ 1) := by
  unfold mutationTarget
  simp only [bind_unit_eq_ok, refuseIf_eq_ok, Bool.not_eq_false]
  apply and_congr_right
  intro _
  apply and_congr_right
  intro _
  constructor
  · intro h
    split at h
    · cases h
    · rename_i target' htarget
      split at h
      · cases h
      · rename_i howner
        split at h
        · cases h
        · rename_i hlast
          obtain rfl := Except.ok.inj h
          exact ⟨htarget, howner, by simpa using hlast⟩
  · rintro ⟨htarget, howner, hlast⟩
    simp only [htarget]
    rw [if_neg howner, if_neg (by simpa using hlast)]

theorem exists_mutated_iff {target : OrganisationMembership} {newRoleCode newStatus : String} :
    (∃ m, mutated target newRoleCode newStatus = .ok m) ↔
      (Role.ofCode? newRoleCode).isSome = true ∧ (MembershipStatus.ofCode? newStatus).isSome = true := by
  unfold mutated
  cases Role.ofCode? newRoleCode with
  | none => simp
  | some role =>
      cases MembershipStatus.ofCode? newStatus with
      | none => simp
      | some status => simp

theorem exists_storeSession_iff {s : UserSession} : (∃ row, storeSession s = .ok row) ↔ s.check = true := by
  constructor
  · rintro ⟨row, h⟩
    rw [← storeSession_eq_ok.mp h]
    exact row.property
  · intro h
    exact ⟨⟨s, h⟩, storeSession_eq_ok.mpr rfl⟩

/-- The row of a session that is revoked. -/
theorem check_of_revoked (s : SessionRecord) :
    ({ s.val with revokedAt := some now } : UserSession).check = true ↔ s.val.createdAt ≤ now := by
  have h := s.property
  simp only [UserSession.check, Bool.and_eq_true] at h
  simp only [UserSession.check, h.1.1, h.1.2, Bool.and_self, Bool.true_and, Option.all_some, decide_eq_true_eq]

theorem exists_revokeSessions_iff (db : AuthDatabase) (which : UserSession → Bool) :
    (∃ db', db.revokeSessions which now = .ok db') ↔
      ∀ s ∈ db.sessions, which s.val = true → s.val.revokedAt = none → s.val.createdAt ≤ now := by
  unfold revokeSessions
  constructor
  · rintro ⟨db', h⟩ s hs hwhich hunrevoked
    obtain ⟨rows, hrows, _⟩ := bind_eq_ok.mp h
    obtain ⟨row, hrow⟩ := forall_ok_of_mapM hrows s hs
    rw [hwhich, hunrevoked, Option.isNone_none, Bool.and_self, if_pos rfl] at hrow
    exact (check_of_revoked s).mp (exists_storeSession_iff.mp ⟨row, hrow⟩)
  · intro h
    obtain ⟨rows, hrows⟩ := exists_mapM_ok (l := db.sessions) (f := fun s : SessionRecord =>
      if which s.val && s.val.revokedAt.isNone then storeSession { s.val with revokedAt := some now } else pure s)
      (by
        intro s hs
        by_cases hwhich : (which s.val && s.val.revokedAt.isNone) = true
        · simp only [if_pos hwhich]
          rw [Bool.and_eq_true, Option.isNone_iff_eq_none] at hwhich
          exact exists_storeSession_iff.mpr ((check_of_revoked s).mpr (h s hs hwhich.1 hwhich.2))
        · simp only [if_neg hwhich]
          exact ⟨s, rfl⟩)
    exact ⟨_, bind_eq_ok.mpr ⟨rows, hrows, rfl⟩⟩

theorem exists_mutateAs_iff {organisationId principalId targetPrincipalId : Nat} {role : Role}
    {newRoleCode newStatus : String} :
    (∃ answer, mutateAs ⟨organisationId, principalId, role⟩ targetPrincipalId newRoleCode newStatus now db =
        .ok answer) ↔
      MayMutate db now organisationId principalId role targetPrincipalId newRoleCode newStatus := by
  unfold mutateAs
  constructor
  · rintro ⟨answer, h⟩
    obtain ⟨target, htarget, h⟩ := bind_eq_ok.mp h
    obtain ⟨m, hm, h⟩ := bind_eq_ok.mp h
    obtain ⟨db', hrevoke, _⟩ := bind_eq_ok.mp h
    obtain ⟨hmanages, hanother, hget, howner, hlast⟩ := mutationTarget_iff.mp htarget
    obtain ⟨hrole, hstatus⟩ := exists_mutated_iff.mp ⟨m, hm⟩
    have hrevocable := (exists_revokeSessions_iff _ _).mp ⟨db', hrevoke⟩
    exact ⟨hmanages, hanother, ⟨target, hget, howner, hlast⟩, hrole, hstatus, hrevocable⟩
  · intro h
    obtain ⟨target, hget, howner, hlast⟩ := h.target
    obtain ⟨m, hm⟩ := exists_mutated_iff.mpr ⟨h.role, h.status⟩
    obtain ⟨db', hrevoke⟩ := (exists_revokeSessions_iff
      { db with memberships := db.memberships.insert (organisationId, targetPrincipalId) m } _).mpr h.revocable
    refine ⟨(m, db'), bind_eq_ok.mpr ⟨target, ?_, bind_eq_ok.mpr ⟨m, hm, bind_eq_ok.mpr ⟨db', hrevoke, rfl⟩⟩⟩⟩
    exact mutationTarget_iff.mpr ⟨h.manages, h.another, hget, howner, hlast⟩

/-- What the two back ends ask of the caller of `mutate_membership`. -/
theorem mutateMembership_iff {tokenHash : String} {targetPrincipalId : Nat} {newRoleCode newStatus : String}
    {answer : OrganisationMembership × AuthDatabase} :
    mutateMembership backend tokenHash targetPrincipalId newRoleCode newStatus now db = .ok answer ↔
      ∃ s organisationId authVersion m, ActsIn db now tokenHash s organisationId authVersion m ∧
        (backend = .postgres → db.organisationActive organisationId = true ∧ m.authVersion = authVersion) ∧
        mutateAs ⟨organisationId, s.principalId, m.roleCode⟩ targetPrincipalId newRoleCode newStatus now db =
          .ok answer := by
  unfold mutateMembership
  rw [bind_eq_ok]
  cases backend with
  | postgres =>
      simp only [mutationActor, currentActor_iff]
      constructor
      · rintro ⟨_, ⟨s, organisationId, authVersion, m, hactor, hcurrent, rfl⟩, h⟩
        exact ⟨s, organisationId, authVersion, m, hactor, fun _ => hcurrent, h⟩
      · rintro ⟨s, organisationId, authVersion, m, hactor, hcurrent, h⟩
        exact ⟨_, ⟨s, organisationId, authVersion, m, hactor, hcurrent trivial, rfl⟩, h⟩
  | sqlite =>
      simp only [mutationActor, activeActor_iff]
      constructor
      · rintro ⟨_, ⟨s, organisationId, authVersion, m, hactor, rfl⟩, h⟩
        exact ⟨s, organisationId, authVersion, m, hactor, fun h => absurd h Backend.sqlite_ne_postgres, h⟩
      · rintro ⟨s, organisationId, authVersion, m, hactor, _, h⟩
        exact ⟨_, ⟨s, organisationId, authVersion, m, hactor, rfl⟩, h⟩

end AuthDatabase

/-- A token and a time say who acts where. -/
theorem ActsIn.unique {tokenHash : String} {s s' : UserSession} {organisationId organisationId' : Nat}
    {authVersion authVersion' : ℕ+} {m m' : OrganisationMembership}
    (h : ActsIn db now tokenHash s organisationId authVersion m)
    (h' : ActsIn db now tokenHash s' organisationId' authVersion' m') :
    s' = s ∧ organisationId' = organisationId ∧ authVersion' = authVersion ∧ m' = m := by
  obtain rfl := Option.some.inj (h.caller.symm.trans h'.caller)
  obtain ⟨rfl, rfl⟩ := Prod.mk.inj (Option.some.inj (h.active.symm.trans h'.active))
  exact ⟨rfl, rfl, rfl, Option.some.inj (h'.membership.symm.trans h.membership)⟩

/-! ## Call by call -/

/-- A call is answered alike if each back end accepts what the other does. -/
theorem alike_of_accepts {call : GuardedCall} (h : ∀ a, call.answer L .postgres now db = some a ↔
    call.answer L .sqlite now db = some a) : Alike L now db call := Option.ext h

/-- A call that only the fallback accepts is not answered alike. -/
theorem not_alike_of_sqlite {call : GuardedCall} (hpostgres : ∀ a, call.answer L .postgres now db ≠ some a)
    (hsqlite : ∃ a, call.answer L .sqlite now db = some a) : ¬ Alike L now db call := by
  intro halike
  obtain ⟨a, ha⟩ := hsqlite
  exact hpostgres a (halike.trans ha)

theorem toOption_map_eq_some {ε α β : Type} {x : Except ε α} {f : α → β} {b : β} :
    x.toOption.map f = some b ↔ ∃ a, x = .ok a ∧ f a = b := by
  cases x with
  | error e => simp [Except.toOption]
  | ok a => simp [Except.toOption]

/-! ### Sessions -/

/-- What the two back ends tell of a session that is bound: the same staleness, and the same role unless an outdated
    membership has one. -/
theorem standing_alike_iff {principalId organisationId : Nat} {authVersion : ℕ+} :
    ((standing .postgres principalId organisationId authVersion db).1 =
        (standing .sqlite principalId organisationId authVersion db).1 ∧
      (standing .postgres principalId organisationId authVersion db).2.2 =
        (standing .sqlite principalId organisationId authVersion db).2.2) ↔
      ∀ o m, db.organisations[organisationId]? = some o →
        db.memberships.get? (organisationId, principalId) = some m → outdated o m authVersion = false := by
  unfold standing
  cases db.organisations[organisationId]? with
  | none => simp
  | some o =>
      cases db.memberships.get? (organisationId, principalId) with
      | none => simp
      | some m =>
          cases houtdated : outdated o m authVersion with
          | true => simp [houtdated]
          | false => simp [houtdated]

/-- What `lookup_session` finds of a session is compared by its staleness and its role. -/
theorem lookup_alike_iff (L : Letters) (tokenHash : String) :
    Alike L now db (.lookupSession tokenHash) ↔ ¬ Splits L now db (.lookupSession tokenHash) := by
  show (db.lookupSession .postgres tokenHash now).map _ = (db.lookupSession .sqlite tokenHash now).map _ ↔ _
  unfold lookupSession
  cases hfound : db.findSession tokenHash with
  | none =>
      simp only [Option.map_none]
      refine iff_of_true trivial fun hsplits => ?_
      cases hsplits with
      | staleRole hfound' => cases hfound.symm.trans hfound'
  | some found =>
      obtain ⟨i, s⟩ := found
      cases hp : db.principals[s.val.principalId]? with
      | none =>
          simp only [hp]
          refine iff_of_true trivial fun hsplits => ?_
          cases hsplits with
          | staleRole hfound' hp' =>
              obtain ⟨_, rfl⟩ := Prod.mk.inj (Option.some.inj (hfound.symm.trans hfound'))
              cases hp.symm.trans hp'
      | some p =>
          simp only [hp]
          cases hactive : s.val.active with
          | none =>
              refine iff_of_true rfl fun hsplits => ?_
              cases hsplits with
              | staleRole hfound' _ hactive' =>
                  obtain ⟨_, rfl⟩ := Prod.mk.inj (Option.some.inj (hfound.symm.trans hfound'))
                  cases hactive.symm.trans hactive'
          | some bound =>
              obtain ⟨organisationId, authVersion⟩ := bound
              simp only [Option.map_some, answering, Option.some.injEq, Answer.mk.injEq, and_true]
              rw [and_comm, standing_alike_iff]
              constructor
              · intro h hsplits
                cases hsplits with
                | staleRole hfound' _ hactive' ho hm houtdated =>
                    obtain ⟨_, rfl⟩ := Prod.mk.inj (Option.some.inj (hfound.symm.trans hfound'))
                    obtain ⟨rfl, rfl⟩ := Prod.mk.inj (Option.some.inj (hactive.symm.trans hactive'))
                    exact absurd houtdated (Bool.eq_false_iff.mp (h _ _ ho hm))
              · intro hsplits o m ho hm
                rw [Bool.eq_false_iff]
                exact fun houtdated => hsplits (.staleRole hfound hp hactive ho hm houtdated)

theorem answer_touch {tokenHash : String} {window throttle : ℤ} {a : Answer} :
    (GuardedCall.touchSession tokenHash window throttle).answer L backend now db = some a ↔
      ∃ db', db.touchSessionThrottled backend tokenHash now window throttle = .ok (true, db') ∧
        db'.answering none false none = a := by
  show (db.touchSessionThrottled backend tokenHash now window throttle).toOption.bind _ = some a ↔ _
  cases db.touchSessionThrottled backend tokenHash now window throttle with
  | error e => simp [Except.toOption]
  | ok p =>
      obtain ⟨wrote, db'⟩ := p
      cases wrote with
      | false => simp [Except.toOption]
      | true => simp [Except.toOption]

theorem touch_alike_iff (hdb : DistinctTokens db) (L : Letters) (tokenHash : String) (window throttle : ℤ) :
    Alike L now db (.touchSession tokenHash window throttle) ↔
      ¬ Splits L now db (.touchSession tokenHash window throttle) := by
  have hpast : ∀ s : UserSession, s.lastActiveAt ≠ now - seconds throttle →
      pastThrottle .postgres s throttle now = pastThrottle .sqlite s throttle now := by
    intro s hs
    simp only [pastThrottle, decide_eq_decide]
    exact ⟨le_of_lt, fun h => lt_of_le_of_ne h hs⟩
  constructor
  · intro halike hsplits
    cases hsplits with
    | @atThrottle _ _ _ i s hfound hlive hwindow hthrottle =>
        refine not_alike_of_sqlite ?_ ?_ halike
        · intro a ha
          obtain ⟨db', htouch, _⟩ := answer_touch.mp ha
          obtain ⟨j, t, _, hfound', _, _, hpast', _⟩ := (touch_iff hdb).mp htouch
          obtain ⟨rfl, rfl⟩ := Prod.mk.inj (Option.some.inj (hfound.symm.trans hfound'))
          simp [pastThrottle, hthrottle] at hpast'
        · have hpast : pastThrottle .sqlite s.val throttle now = true := by simp [pastThrottle, hthrottle]
          let row : SessionRecord := ⟨_, (check_of_live hlive s.val.active s.val.sessionTokenHash window).mpr hwindow⟩
          exact ⟨_, answer_touch.mpr ⟨_, (touch_iff hdb).mpr ⟨i, s, row, hfound, hlive, hwindow, hpast, rfl, rfl⟩, rfl⟩⟩
  · intro hsplits
    apply alike_of_accepts
    intro a
    simp only [answer_touch, touch_iff hdb]
    have hsame : ∀ i s, db.findSession tokenHash = some (i, s) → s.val.live now = true → 0 ≤ window →
        (pastThrottle .postgres s.val throttle now = true ↔ pastThrottle .sqlite s.val throttle now = true) := by
      intro i s hfound hlive hwindow
      rw [hpast s.val fun hthrottle => hsplits (.atThrottle hfound hlive hwindow hthrottle)]
    constructor
    · rintro ⟨db', ⟨i, s, row, hfound, hlive, hwindow, hpast, h⟩, ha⟩
      exact ⟨db', ⟨i, s, row, hfound, hlive, hwindow, (hsame i s hfound hlive hwindow).mp hpast, h⟩, ha⟩
    · rintro ⟨db', ⟨i, s, row, hfound, hlive, hwindow, hpast, h⟩, ha⟩
      exact ⟨db', ⟨i, s, row, hfound, hlive, hwindow, (hsame i s hfound hlive hwindow).mpr hpast, h⟩, ha⟩

theorem answer_switch {tokenHash fresh : String} {targetOrgId : Nat} {a : Answer} :
    (GuardedCall.switchOrganisation tokenHash targetOrgId fresh).answer L backend now db = some a ↔
      ∃ p, db.switchOrganisation backend tokenHash targetOrgId fresh now = .ok p ∧
        p.2.answering (some p.1.2) false none = a := toOption_map_eq_some

/-- Both ask for a live session and an active membership of an active organisation; PostgreSQL also for an active
    principal. -/
theorem switch_alike_iff (L : Letters) (tokenHash fresh : String) (targetOrgId : Nat) :
    Alike L now db (.switchOrganisation tokenHash targetOrgId fresh) ↔
      ¬ Splits L now db (.switchOrganisation tokenHash targetOrgId fresh) := by
  constructor
  · intro halike hsplits
    cases hsplits with
    | @inactivePrincipal _ _ _ i s m hfound hlive hinactive horganisation hm hnew =>
        refine not_alike_of_sqlite ?_ ?_ halike
        · intro a ha
          obtain ⟨⟨answer, db'⟩, hswitch, _⟩ := answer_switch.mp ha
          obtain ⟨j, t, _, _, hfound', _, hprincipal, _⟩ := switch_iff.mp hswitch
          obtain ⟨rfl, rfl⟩ := Prod.mk.inj (Option.some.inj (hfound.symm.trans hfound'))
          rw [hinactive] at hprincipal
          rcases hprincipal with h | h
          · cases h
          · cases h
        · let row : SessionRecord :=
            ⟨_, (check_of_live hlive (some (targetOrgId, m.authVersion)) fresh idleTimeoutSeconds).mpr (by decide)⟩
          exact ⟨_, answer_switch.mpr ⟨⟨(m.authVersion, m.roleCode), _⟩, switch_iff.mpr
            ⟨i, s, m, row, hfound, hlive, Or.inl rfl, horganisation, hm, hnew, rfl, rfl, rfl⟩, rfl⟩⟩
  · intro hsplits
    apply alike_of_accepts
    intro a
    rw [answer_switch, answer_switch]
    constructor
    · rintro ⟨⟨answer, db'⟩, hswitch, ha⟩
      obtain ⟨i, s, m, row, hfound, hlive, _, h⟩ := switch_iff.mp hswitch
      exact ⟨(answer, db'), switch_iff.mpr ⟨i, s, m, row, hfound, hlive, Or.inl rfl, h⟩, ha⟩
    · rintro ⟨⟨answer, db'⟩, hswitch, ha⟩
      obtain ⟨i, s, m, row, hfound, hlive, _, horganisation, hm, hnew, h⟩ := switch_iff.mp hswitch
      have hprincipal : db.principalActive s.val.principalId = true := by
        by_contra hinactive
        exact hsplits (.inactivePrincipal hfound hlive (Bool.not_eq_true _ ▸ hinactive) horganisation hm hnew)
      exact ⟨(answer, db'), switch_iff.mpr
        ⟨i, s, m, row, hfound, hlive, Or.inr hprincipal, horganisation, hm, hnew, h⟩, ha⟩

/-! ### Invitations -/

theorem answer_create {tokenHash email roleCode fresh : String} {a : Answer} :
    (GuardedCall.createInvitation tokenHash email roleCode fresh).answer L backend now db = some a ↔
      ∃ p, db.createInvitation L backend tokenHash email roleCode fresh now = .ok p ∧
        p.2.answering none false none = a := toOption_map_eq_some

/-- What an invitation leaves, by who makes it. -/
theorem answer_create_iff (L : Letters) (backend : Backend) (email : String) {tokenHash roleCode fresh : String}
    {s : UserSession} {organisationId : Nat} {authVersion : ℕ+} {m : OrganisationMembership} {role : Role} {a : Answer}
    (hactor : ActsIn db now tokenHash s organisationId authVersion m) (hmanages : mayManage m.roleCode = true)
    (howner : ¬ (m.roleCode = .admin ∧ roleCode = Role.owner.code)) (hrole : Role.ofCode? roleCode = some role)
    (hnew : db.findInvitation fresh = none) :
    (GuardedCall.createInvitation tokenHash email roleCode fresh).answer L backend now db = some a ↔
      refusesEmail L backend organisationId email db = false ∧
        a = { sessions := db.sessions, memberships := db.memberships, invitations := db.invitations ++
          [newInvitation L backend now organisationId s.principalId email role fresh] } := by
  rw [answer_create]
  constructor
  · rintro ⟨⟨n, db'⟩, hcreate, rfl⟩
    obtain ⟨s', organisationId', authVersion', m', role', hactor', _, _, hrole', _, hemail, _, rfl⟩ :=
      createInvitation_iff.mp hcreate
    obtain ⟨rfl, rfl, rfl, rfl⟩ := hactor.unique hactor'
    obtain rfl := Option.some.inj (hrole.symm.trans hrole')
    exact ⟨hemail, rfl⟩
  · rintro ⟨hemail, rfl⟩
    exact ⟨(_, _), createInvitation_iff.mpr
      ⟨s, organisationId, authVersion, m, role, hactor, hmanages, howner, hrole, hnew, hemail, rfl, rfl⟩, rfl⟩

/-- The two back ends make the same of an e-mail address: both refuse it, or both store it in the same way. -/
def SameEmail (L : Letters) (organisationId : Nat) (email : String) (db : AuthDatabase) : Prop :=
  refusesEmail L .postgres organisationId email db = refusesEmail L .sqlite organisationId email db ∧
    (refusesEmail L .postgres organisationId email db = false → normEmail L .postgres email = normEmail L .sqlite email)

theorem create_alike_of_actor (L : Letters) (email : String) {tokenHash roleCode fresh : String} {s : UserSession}
    {organisationId : Nat} {authVersion : ℕ+} {m : OrganisationMembership} {role : Role}
    (hactor : ActsIn db now tokenHash s organisationId authVersion m) (hmanages : mayManage m.roleCode = true)
    (howner : ¬ (m.roleCode = .admin ∧ roleCode = Role.owner.code)) (hrole : Role.ofCode? roleCode = some role)
    (hnew : db.findInvitation fresh = none) :
    Alike L now db (.createInvitation tokenHash email roleCode fresh) ↔ SameEmail L organisationId email db := by
  have hanswer := fun backend a =>
    @answer_create_iff db now L backend email tokenHash roleCode fresh s organisationId authVersion m role a hactor
      hmanages howner hrole hnew
  constructor
  · intro halike
    cases hrefuses : refusesEmail L .postgres organisationId email db with
    | false =>
        obtain ⟨hknown, hleft⟩ := (hanswer .sqlite _).mp (halike.symm.trans ((hanswer .postgres _).mpr ⟨hrefuses, rfl⟩))
        refine ⟨hrefuses.trans hknown.symm, fun _ => ?_⟩
        have hrows := List.append_cancel_left (congrArg Answer.invitations hleft)
        exact congrArg (fun i : InvitationRecord => i.val.email) (List.singleton_inj.mp hrows)
    | true =>
        refine ⟨hrefuses.trans (Bool.eq_true_of_not_eq_false fun hknown => ?_).symm, fun h => ?_⟩
        · have h := ((hanswer .postgres _).mp (halike.trans ((hanswer .sqlite _).mpr ⟨hknown, rfl⟩))).1
          cases hrefuses.symm.trans h
        · cases hrefuses.symm.trans h
  · rintro ⟨hrefuses, hstores⟩
    apply alike_of_accepts
    intro a
    rw [hanswer, hanswer, hrefuses]
    apply and_congr_right
    intro hknown
    have hrow : newInvitation L .postgres now organisationId s.principalId email role fresh =
        newInvitation L .sqlite now organisationId s.principalId email role fresh := by
      apply Subtype.ext
      simp only [newInvitation, hstores (hrefuses.trans hknown)]
    rw [hrow]

theorem create_alike_iff (L : Letters) (tokenHash email roleCode fresh : String) :
    Alike L now db (.createInvitation tokenHash email roleCode fresh) ↔
      ¬ Splits L now db (.createInvitation tokenHash email roleCode fresh) := by
  constructor
  · intro halike hsplits
    cases hsplits with
    | emails hactor hmanages howner hrole hnew hemails =>
        obtain ⟨role, hrole⟩ := Option.isSome_iff_exists.mp hrole
        obtain ⟨hrefuses, hstores⟩ := (create_alike_of_actor L email hactor hmanages howner hrole hnew).mp halike
        rcases hemails with hne | ⟨hknown, hne⟩
        · exact hne hrefuses
        · exact hne (hstores hknown)
  · intro hsplits
    -- Whoever may invite at all makes the same of the address.
    have hsame : ∀ {s organisationId authVersion m role}, ActsIn db now tokenHash s organisationId authVersion m →
        mayManage m.roleCode = true → ¬ (m.roleCode = .admin ∧ roleCode = Role.owner.code) →
        Role.ofCode? roleCode = some role → db.findInvitation fresh = none →
        Alike L now db (.createInvitation tokenHash email roleCode fresh) := by
      intro s organisationId authVersion m role hactor hmanages howner hrole hnew
      apply (create_alike_of_actor L email hactor hmanages howner hrole hnew).mpr
      by_contra hdiffer
      refine hsplits (.emails hactor hmanages howner (by rw [hrole]; rfl) hnew ?_)
      rw [SameEmail, not_and_or, Classical.not_imp] at hdiffer
      exact hdiffer
    apply alike_of_accepts
    intro a
    constructor
    · intro ha
      obtain ⟨⟨n, db'⟩, hcreate, _⟩ := answer_create.mp ha
      obtain ⟨_, _, _, _, _, hactor, hmanages, howner, hrole, hnew, _⟩ := createInvitation_iff.mp hcreate
      exact (hsame hactor hmanages howner hrole hnew).symm.trans ha
    · intro ha
      obtain ⟨⟨n, db'⟩, hcreate, _⟩ := answer_create.mp ha
      obtain ⟨_, _, _, _, _, hactor, hmanages, howner, hrole, hnew, _⟩ := createInvitation_iff.mp hcreate
      exact (hsame hactor hmanages howner hrole hnew).trans ha

theorem answer_accept {tokenHash invitationTokenHash : String} {a : Answer} :
    (GuardedCall.acceptInvitation tokenHash invitationTokenHash).answer L backend now db = some a ↔
      ∃ p, db.acceptInvitation L backend tokenHash invitationTokenHash now = .ok p ∧
        p.2.answering (some p.1.2) false none = a := toOption_map_eq_some

/-- An invitation is accepted alike exactly if its address is the caller's to both or to neither. -/
theorem accept_alike_iff (L : Letters) (tokenHash invitationTokenHash : String) :
    Alike L now db (.acceptInvitation tokenHash invitationTokenHash) ↔
      ¬ Splits L now db (.acceptInvitation tokenHash invitationTokenHash) := by
  constructor
  · intro halike hsplits
    cases hsplits with
    | @addresses _ _ s p n i hcaller hp hfound hpending hunexpired hnew horganisation haddresses =>
        let i' : InvitationRecord :=
          ⟨{ i.val with status := .accepted, acceptedAt := some now }, accepted_check hpending⟩
        have haccepts : ∀ backend, (∃ a, (GuardedCall.acceptInvitation tokenHash invitationTokenHash).answer L backend
            now db = some a) ↔ normEmail L backend p.email = normEmail L backend i.val.email := by
          intro backend
          constructor
          · rintro ⟨a, ha⟩
            obtain ⟨⟨_, _⟩, haccept, _⟩ := answer_accept.mp ha
            obtain ⟨s', p', n', j, _, hcaller', hp', hfound', _, _, hemail, _⟩ := acceptInvitation_iff.mp haccept
            obtain rfl := Option.some.inj (hcaller.symm.trans hcaller')
            obtain rfl := Option.some.inj (hp.symm.trans hp')
            obtain ⟨rfl, rfl⟩ := Prod.mk.inj (Option.some.inj (hfound.symm.trans hfound'))
            exact hemail
          · intro hemail
            exact ⟨_, answer_accept.mpr ⟨((_, _), _), acceptInvitation_iff.mpr ⟨s, p, n, i, i', hcaller, hp, hfound,
              hpending, hunexpired, hemail, hnew, horganisation, rfl, rfl, rfl⟩, rfl⟩⟩
        apply haddresses
        rw [← haccepts .postgres, ← haccepts .sqlite, halike]
  · intro hsplits
    apply alike_of_accepts
    intro a
    rw [answer_accept, answer_accept]
    constructor
    · rintro ⟨⟨answer, db'⟩, haccept, ha⟩
      obtain ⟨s, p, n, i, i', hcaller, hp, hfound, hpending, hunexpired, hemail, hnew, horganisation, h⟩ :=
        acceptInvitation_iff.mp haccept
      have haddresses := not_not.mp fun h =>
        hsplits (.addresses hcaller hp hfound hpending hunexpired hnew horganisation h)
      exact ⟨(answer, db'), acceptInvitation_iff.mpr ⟨s, p, n, i, i', hcaller, hp, hfound, hpending, hunexpired,
        haddresses.mp hemail, hnew, horganisation, h⟩, ha⟩
    · rintro ⟨⟨answer, db'⟩, haccept, ha⟩
      obtain ⟨s, p, n, i, i', hcaller, hp, hfound, hpending, hunexpired, hemail, hnew, horganisation, h⟩ :=
        acceptInvitation_iff.mp haccept
      have haddresses := not_not.mp fun h =>
        hsplits (.addresses hcaller hp hfound hpending hunexpired hnew horganisation h)
      exact ⟨(answer, db'), acceptInvitation_iff.mpr ⟨s, p, n, i, i', hcaller, hp, hfound, hpending, hunexpired,
        haddresses.mpr hemail, hnew, horganisation, h⟩, ha⟩

/-! ### Memberships -/

theorem answer_mutate {tokenHash newRoleCode newStatus : String} {targetPrincipalId : Nat} {a : Answer} :
    (GuardedCall.mutateMembership tokenHash targetPrincipalId newRoleCode newStatus).answer L backend now db = some a ↔
      ∃ p, db.mutateMembership backend tokenHash targetPrincipalId newRoleCode newStatus now = .ok p ∧
        p.2.answering (some p.1.roleCode) false none = a := toOption_map_eq_some

theorem mutate_alike_iff (L : Letters) (tokenHash : String) (targetPrincipalId : Nat) (newRoleCode newStatus : String) :
    Alike L now db (.mutateMembership tokenHash targetPrincipalId newRoleCode newStatus) ↔
      ¬ Splits L now db (.mutateMembership tokenHash targetPrincipalId newRoleCode newStatus) := by
  constructor
  · intro halike hsplits
    cases hsplits with
    | @staleActor _ _ _ _ s organisationId authVersion m hactor hstale hallowed =>
        obtain ⟨answer, hmutate⟩ := exists_mutateAs_iff.mpr hallowed
        refine not_alike_of_sqlite ?_ ?_ halike
        · intro a ha
          obtain ⟨_, hpostgres, _⟩ := answer_mutate.mp ha
          obtain ⟨_, _, _, _, hactor', hcurrent, _⟩ := mutateMembership_iff.mp hpostgres
          obtain ⟨rfl, rfl, rfl, rfl⟩ := hactor.unique hactor'
          exact hstale (hcurrent rfl)
        · exact ⟨_, answer_mutate.mpr ⟨answer, mutateMembership_iff.mpr
            ⟨s, organisationId, authVersion, m, hactor, fun h => absurd h Backend.sqlite_ne_postgres, hmutate⟩, rfl⟩⟩
  · intro hsplits
    apply alike_of_accepts
    intro a
    rw [answer_mutate, answer_mutate]
    constructor
    · rintro ⟨answer, hmutate, ha⟩
      obtain ⟨s, organisationId, authVersion, m, hactor, _, h⟩ := mutateMembership_iff.mp hmutate
      exact ⟨answer, mutateMembership_iff.mpr
        ⟨s, organisationId, authVersion, m, hactor, fun h => absurd h Backend.sqlite_ne_postgres, h⟩, ha⟩
    · rintro ⟨answer, hmutate, ha⟩
      obtain ⟨s, organisationId, authVersion, m, hactor, _, h⟩ := mutateMembership_iff.mp hmutate
      have hcurrent : db.organisationActive organisationId = true ∧ m.authVersion = authVersion := by
        by_contra hstale
        exact hsplits (.staleActor hactor hstale (exists_mutateAs_iff.mp ⟨answer, h⟩))
      exact ⟨answer, mutateMembership_iff.mpr ⟨s, organisationId, authVersion, m, hactor, fun _ => hcurrent, h⟩, ha⟩

/-! ## The result -/

/-- The session of an owner in an organisation. -/
def ownerSession : UserSession where
  principalId := 0
  sessionTokenHash := "t"
  active := some (0, ⟨1, Nat.one_pos⟩)
  lastActiveAt := 0
  idleExpiresAt := seconds idleTimeoutSeconds
  absoluteExpiresAt := seconds absoluteTimeoutSeconds
  createdAt := 0

/-- An organisation with an owner, who is signed in, and an operator. -/
def managed (isActive : Bool) : AuthDatabase where
  principals := [{ email := "o" }, { email := "m" }]
  organisations := [{ isActive := isActive }]
  memberships := (Dict.empty.insert (0, 0) { roleCode := .owner }).insert (0, 1) { roleCode := .operator }
  sessions := [⟨ownerSession, by decide⟩]

theorem distinct_managed (isActive : Bool) : DistinctTokens (managed isActive) := by
  intro i j s t hs ht _
  have hi : i < 1 := (List.getElem?_eq_some_iff.mp hs).1
  have hj : j < 1 := (List.getElem?_eq_some_iff.mp ht).1
  omega

end Untangle
