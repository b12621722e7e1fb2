import Untangle.Correctness.Auth.Effects

/-!
# `Correctness.Auth.Acceptance` — when a pending invitation can be accepted

`create_invitation` refuses an e-mail address of an active member; `accept_invitation` inserts a membership, whatever
the status of the one that may be there. So the invitation of a member who is suspended, or who joined in the meantime,
can be created but not accepted: it can be exactly if its principal has no membership of the organisation yet
(`accepted_iff`). Both back ends do the same.
-/

namespace Untangle

open Lib

variable {L : Letters} {tokens : Nat → String} {backend : Backend} {db db' : AuthDatabase} {fresh : String}
  {now : Instant}

open AuthDatabase

/-! ## Acceptance -/

theorem principalActive_of_caller {tokenHash : String} {s : UserSession} (h : db.caller tokenHash now = some s) :
    ∃ p, db.principals[s.principalId]? = some p := by
  obtain ⟨_, _, _, _, _, hactive⟩ := caller_eq_some h
  unfold principalActive at hactive
  cases hp : db.principals[s.principalId]? with
  | none =>
      rw [hp] at hactive
      cases hactive
  | some p => exact ⟨p, rfl⟩

/-- The row of an invitation that is accepted keeps the CHECK constraints. -/
theorem accepted_check {i : InvitationRecord} (hpending : i.val.status = .pending) :
    ({ i.val with status := .accepted, acceptedAt := some now } : OrganisationInvitation).check = true := by
  have hcheck := i.property
  simp only [OrganisationInvitation.check, OrganisationInvitation.lifecycle, hpending, Bool.and_eq_true] at hcheck ⊢
  exact ⟨⟨rfl, hcheck.1.2⟩, hcheck.2⟩

/-- `accept_invitation` succeeds and leaves the principal a member with the invited role. -/
def Accepts (L : Letters) (backend : Backend) (tokenHash invitationTokenHash : String) (now : Instant)
    (principalId : Nat) (i : InvitationRecord) (db : AuthDatabase) : Prop :=
  ∃ db' m, acceptInvitation L backend tokenHash invitationTokenHash now db =
      .ok ((i.val.organisationId, i.val.roleCode), db') ∧
    db'.memberships.get? (i.val.organisationId, principalId) = some m ∧ m.status = .active ∧
    m.roleCode = i.val.roleCode

/-- What is left of the call once the session, the invitation and the address are in order. -/
theorem acceptInvitation_of_open {tokenHash invitationTokenHash : String} {s : UserSession} {p : Principal} {n : Nat}
    {i : InvitationRecord} (hcaller : db.caller tokenHash now = some s)
    (hp : db.principals[s.principalId]? = some p) (hi : db.findInvitation invitationTokenHash = some (n, i))
    (hpending : i.val.status = .pending) (hunexpired : now < i.val.expiresAt)
    (hemail : normEmail L backend p.email = normEmail L backend i.val.email) :
    acceptInvitation L backend tokenHash invitationTokenHash now db = do
      let db ← db.updateInvitation n { i.val with status := .accepted, acceptedAt := some now }
      let db ← db.insertMembership i.val.organisationId s.principalId { roleCode := i.val.roleCode }
      return ((i.val.organisationId, i.val.roleCode), db) := by
  unfold acceptInvitation
  have hopen : ¬ (i.val.status ≠ .pending ∨ i.val.expiresAt ≤ now) := by
    rw [not_or, not_not, not_le]
    exact ⟨hpending, hunexpired⟩
  simp only [hcaller, hp, hi, if_neg hopen, hemail, ne_eq, not_true, if_false]

/-- **A pending invitation can be accepted exactly if its principal has no membership of the organisation**, whatever
    the status of it, in every state that the service comes to. -/
theorem accepted_iff (L : Letters) (tokens : Nat → String) (backend : Backend) (principals : List Principal)
    (clock : Instant) (σ : AuthState)
    (hreachable : Reachable (AuthState.step L tokens backend) (AuthState.initial principals clock) σ)
    (now : Instant) (tokenHash invitationTokenHash : String) (s : UserSession) (p : Principal) (n : Nat)
    (i : InvitationRecord) (hcaller : σ.db.caller tokenHash now = some s)
    (hp : σ.db.principals[s.principalId]? = some p)
    (hi : σ.db.findInvitation invitationTokenHash = some (n, i)) (hpending : i.val.status = .pending)
    (hunexpired : now < i.val.expiresAt) (hemail : normEmail L backend p.email = normEmail L backend i.val.email) :
    Accepts L backend tokenHash invitationTokenHash now s.principalId i σ.db ↔
      σ.db.memberships.get? (i.val.organisationId, s.principalId) = none := by
  constructor
  · rintro ⟨db', m, haccept, _⟩
    obtain ⟨s', n', j, _, hcaller', hj, _, hnew, _⟩ := acceptInvitation_eq_ok haccept
    obtain rfl := Option.some.inj (hcaller.symm.trans hcaller')
    obtain ⟨_, rfl⟩ := Prod.mk.inj (Option.some.inj (hi.symm.trans hj))
    exact hnew
  · intro hnew
    have hgrounded := grounded_of_reachable hreachable
    have horganisation := hgrounded.invitations i (List.mem_of_getElem? (findInvitation_eq_some hi))
    let i' : InvitationRecord :=
      ⟨{ i.val with status := .accepted, acceptedAt := some now }, accepted_check hpending⟩
    have hupdate : σ.db.updateInvitation n { i.val with status := .accepted, acceptedAt := some now } =
        .ok { σ.db with invitations := σ.db.invitations.set n i' } := updateInvitation_eq_ok.mpr ⟨i', rfl, rfl⟩
    let db₁ : AuthDatabase := { σ.db with invitations := σ.db.invitations.set n i' }
    let db₂ : AuthDatabase :=
      { db₁ with
        memberships := db₁.memberships.insert (i.val.organisationId, s.principalId) { roleCode := i.val.roleCode } }
    have hinsert : db₁.insertMembership i.val.organisationId s.principalId { roleCode := i.val.roleCode } = .ok db₂ :=
      insertMembership_eq_ok.mpr ⟨hnew, horganisation, Option.isSome_iff_exists.mpr ⟨p, hp⟩, rfl⟩
    refine ⟨db₂, { roleCode := i.val.roleCode }, ?_, ?_, rfl, rfl⟩
    · rw [acceptInvitation_of_open hcaller hp hi hpending hunexpired hemail]
      exact bind_eq_ok.mpr ⟨db₁, hupdate, bind_eq_ok.mpr ⟨db₂, hinsert, rfl⟩⟩
    · show (db₁.memberships.insert _ _).get? _ = _
      rw [Dict.get?_insert, if_pos rfl]

/-! ## A member who was suspended -/

/-- Letters that are lower already. -/
def plainLetters : Letters := ⟨id, id, id⟩

/-- Tokens that are told apart by their length. -/
def unaryToken (n : Nat) : String := String.ofList (List.replicate n 't')

/-- The state after calls by an owner (`"o"`) and another principal (`"m"`). -/
def afterCalls (calls : List (Nat × AuthOperation)) : AuthState :=
  run (AuthState.step plainLetters unaryToken .postgres)
    (AuthState.initial [{ email := "o" }, { email := "m" }] 0) calls

/-- The owner creates an organisation and invites the other principal as an operator. -/
def invitesMember : List (Nat × AuthOperation) :=
  [(0, .createSession 0 none), (0, .createSession 1 none), (0, .createOrganisation (unaryToken 0) "org"),
    (0, .switchOrganisation (unaryToken 0) 0), (0, .createInvitation (unaryToken 3) "m" "operator")]

/-- The member accepts, is suspended, and is invited again. -/
def invitesSuspended : List (Nat × AuthOperation) :=
  invitesMember ++ [(0, .acceptInvitation (unaryToken 1) (unaryToken 4)),
    (0, .mutateMembership (unaryToken 3) 1 "operator" "suspended"),
    (0, .createInvitation (unaryToken 3) "m" "operator")]

/-- The session of the second principal. -/
def memberSessionRow : UserSession where
  principalId := 1
  sessionTokenHash := unaryToken 1
  lastActiveAt := 0
  idleExpiresAt := 1800000000
  absoluteExpiresAt := 43200000000
  createdAt := 0

/-- The invitation of the second principal, by its token. -/
def memberInvitation (tokenHash : String) : InvitationRecord :=
  ⟨{ organisationId := 0
     invitedByPrincipalId := 0
     email := "m"
     roleCode := .operator
     tokenHash := tokenHash
     expiresAt := 604800000000
     createdAt := 0 }, rfl⟩

theorem accepted_invited :
    Accepts plainLetters .postgres (unaryToken 1) (unaryToken 4) 0 1 (memberInvitation (unaryToken 4))
      (afterCalls invitesMember).db :=
  (accepted_iff plainLetters unaryToken .postgres [{ email := "o" }, { email := "m" }] 0 (afterCalls invitesMember)
    ⟨invitesMember, rfl⟩ 0 (unaryToken 1) (unaryToken 4) memberSessionRow { email := "m" } 0
    (memberInvitation (unaryToken 4)) (by decide +kernel) (by decide +kernel) (by decide +kernel) rfl (by decide)
    rfl).mpr (by decide +kernel)

/-- The second invitation was created, is pending, unexpired and of the caller's address; accepting it raises. -/
theorem suspended_cannotAccept :
    let σ := afterCalls invitesSuspended
    Reachable (AuthState.step plainLetters unaryToken .postgres)
        (AuthState.initial [{ email := "o" }, { email := "m" }] 0) σ ∧
      σ.db.caller (unaryToken 1) 0 = some memberSessionRow ∧
      σ.db.findInvitation (unaryToken 7) = some (1, memberInvitation (unaryToken 7)) ∧
      ¬ Accepts plainLetters .postgres (unaryToken 1) (unaryToken 7) 0 1 (memberInvitation (unaryToken 7)) σ.db := by
  refine ⟨⟨invitesSuspended, rfl⟩, by decide +kernel, by decide +kernel, ?_⟩
  rintro ⟨db', m, haccept, _⟩
  have hraises : (acceptInvitation plainLetters .postgres (unaryToken 1) (unaryToken 7) 0
      (afterCalls invitesSuspended).db).isOk = false := by decide +kernel
  rw [haccept] at hraises
  cases hraises

end Untangle
