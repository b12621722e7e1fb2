import Untangle.Auth.Interleaving
import Untangle.Correctness.Auth.Effects

/-!
# `Correctness.Auth.Statements` — what one statement of a call can do

The functions with a mutex are taken apart once, statement by statement (`statement_advance`), and so are the calls that
run beside them (`beside_effect`). No two calls ever hold a lock on the same row (`exclusive_run`). The results about
interleavings are case analyses over these.
-/

namespace Untangle

open Lib AuthDatabase

variable {L : Letters} {tokens : Nat → String} {db : AuthDatabase} {locked : LockedRow → Bool} {now : Instant}

/-- A phase that relies on nothing. -/
def Phase.plain : Phase → Bool
  | .called _ _ | .invited _ _ _ | .revoking _ | .revocable _ | .revoked _ none => true
  | _ => false

theorem Phase.holds_of_plain {phase : Phase} (h : phase.plain = true) : phase.holds = [] := by
  cases phase with
  | revoked n row =>
      cases row with
      | none => rfl
      | some row => cases h
  | called _ _ => rfl
  | invited _ _ _ => rfl
  | revoking _ => rfl
  | revocable _ => rfl
  | _ => cases h

/-- What the next statement of a call can lead to. -/
inductive Advance (db : AuthDatabase) (locked : LockedRow → Bool) (now : Instant) : AuthCall → Phase → Outcome → Prop
  | waits {call : AuthCall} {phase : Phase} : Advance db locked now call phase .waits
  | fails {call : AuthCall} {phase : Phase} {e : AuthError} : Advance db locked now call phase (.fails e)
  | reads {call : AuthCall} {phase phase' : Phase} (hplain : phase'.plain = true) :
      Advance db locked now call phase (.goes phase')
  | joining {tokenHash invitationTokenHash : String} {p n : Nat} {i : OrganisationInvitation}
      (hfree : locked (.organisation i.organisationId) = false) :
      Advance db locked now (.acceptInvitation tokenHash invitationTokenHash) (.invited p n i) (.goes (.joining p n i))
  | answering {tokenHash invitationTokenHash : String} {p n : Nat} {i : OrganisationInvitation}
      {i' row : InvitationRecord} (hfree : locked (.invitation n) = false) (hi : db.invitations[n]? = some i')
      (hrow : row.val = { i'.val with status := .accepted, acceptedAt := some now }) :
      Advance db locked now (.acceptInvitation tokenHash invitationTokenHash) (.joining p n i)
        (.goes (.answering p n i row))
  | joined {tokenHash invitationTokenHash : String} {p n : Nat} {i : OrganisationInvitation} {row : InvitationRecord}
      (hnew : db.memberships.get? (i.organisationId, p) = none)
      (horganisation : db.organisations[i.organisationId]?.isSome = true) :
      Advance db locked now (.acceptInvitation tokenHash invitationTokenHash) (.answering p n i row)
        (.goes (.joined p n i row))
  | accepts {tokenHash invitationTokenHash : String} {p n : Nat} {i : OrganisationInvitation}
      {row : InvitationRecord} :
      Advance db locked now (.acceptInvitation tokenHash invitationTokenHash) (.joined p n i row)
        (.commits (.accepted n i.organisationId p) { db with
          invitations := db.invitations.set n row
          memberships := db.memberships.insert (i.organisationId, p) { roleCode := i.roleCode } })
  | revoked {tokenHash : String} {n : Nat} {i row : InvitationRecord} (hfree : locked (.invitation n) = false)
      (hi : db.invitations[n]? = some i) (hpending : i.val.status = .pending)
      (hrow : row.val = { i.val with status := .revoked, revokedAt := some now }) {n' : Nat} :
      Advance db locked now (.revokeInvitation tokenHash n') (.revocable n) (.goes (.revoked n (some row)))
  | revokesNothing {tokenHash : String} {n n' : Nat} :
      Advance db locked now (.revokeInvitation tokenHash n') (.revoked n none) (.commits (.revoked n false) db)
  | revokes {tokenHash : String} {n n' : Nat} {row : InvitationRecord} :
      Advance db locked now (.revokeInvitation tokenHash n') (.revoked n (some row))
        (.commits (.revoked n true) { db with invitations := db.invitations.set n row })
  | entering {tokenHash role status : String} {target k organisationId : Nat} {s : SessionRecord} {version : ℕ+}
      (hfound : db.findSession tokenHash = some (k, s)) (hactive : s.val.active = some (organisationId, version)) :
      Advance db locked now (.mutateMembership tokenHash target role status) .begun (.goes (.entering organisationId))
  | entered {tokenHash role status : String} {target organisationId : Nat}
      (hfree : locked (.organisation organisationId) = false) :
      Advance db locked now (.mutateMembership tokenHash target role status) (.entering organisationId)
        (.goes (.entered organisationId))
  | acting {tokenHash role status : String} {target organisationId : Nat} {actor : Actor}
      (hactor : currentActor tokenHash now db = .ok actor) (hother : actor.principalId ≠ target) :
      Advance db locked now (.mutateMembership tokenHash target role status) (.entered organisationId)
        (.goes (.acting { actor with organisationId := organisationId }))
  | counting {tokenHash role status : String} {target : Nat} {actor : Actor} {m : OrganisationMembership}
      (hm : db.memberships.get? (actor.organisationId, target) = some m)
      (hadmin : actor.roleCode = .admin → m.roleCode ≠ .owner ∧ role ≠ Role.owner.code) :
      Advance db locked now (.mutateMembership tokenHash target role status) (.acting actor) (.goes (.counting actor m))
  | changing {tokenHash role status : String} {target : Nat} {actor : Actor} {m : OrganisationMembership}
      (hm : db.memberships.get? (actor.organisationId, target) = some m)
      (hadmin : actor.roleCode = .admin → m.roleCode ≠ .owner ∧ role ≠ Role.owner.code)
      (hkeeps : demotes m role status = false) :
      Advance db locked now (.mutateMembership tokenHash target role status) (.acting actor) (.goes (.changing actor m))
  | counted {tokenHash role status : String} {target : Nat} {actor : Actor} {m : OrganisationMembership}
      (howners : 1 < db.activeOwners actor.organisationId) :
      Advance db locked now (.mutateMembership tokenHash target role status) (.counting actor m)
        (.goes (.changing actor m))
  | changed {tokenHash role status : String} {target : Nat} {actor : Actor} {m m' : OrganisationMembership}
      (hm' : mutated m role status = .ok m') :
      Advance db locked now (.mutateMembership tokenHash target role status) (.changing actor m)
        (.goes (.changed actor m m'))
  | ending {tokenHash role status : String} {target : Nat} {actor : Actor} {m m' : OrganisationMembership}
      {rows : List (Nat × SessionRecord)}
      (hrows : revokedRows db now (memberSession target actor.organisationId) = .ok rows)
      (hfree : ∀ p ∈ rows, locked (.session p.1) = false) :
      Advance db locked now (.mutateMembership tokenHash target role status) (.changed actor m m')
        (.goes (.ending actor m m' rows))
  | mutates {tokenHash role status : String} {target : Nat} {actor : Actor} {m m' : OrganisationMembership}
      {rows : List (Nat × SessionRecord)} :
      Advance db locked now (.mutateMembership tokenHash target role status) (.ending actor m m' rows)
        (.commits (.mutated actor target) { db with
          memberships := db.memberships.insert (actor.organisationId, target) m'
          sessions := writeSessions rows db.sessions })

theorem acceptStatement_advance (tokenHash invitationTokenHash : String) (phase : Phase) :
    Advance db locked now (.acceptInvitation tokenHash invitationTokenHash) phase
      (acceptStatement L db locked now tokenHash invitationTokenHash phase) := by
  cases phase with
  | begun =>
      rw [acceptStatement]
      split
      · exact .fails
      · split
        · exact .fails
        · exact .reads rfl
  | called principalId email =>
      rw [acceptStatement]
      split
      · exact .fails
      · split
        · exact .fails
        · split
          · exact .fails
          · exact .reads rfl
  | invited p n i =>
      rw [acceptStatement]
      split
      · exact .waits
      · rename_i hfree
        exact .joining (Bool.eq_false_of_not_eq_true hfree)
  | joining p n i =>
      rw [acceptStatement]
      split
      · exact .waits
      · rename_i hfree
        split
        · exact .fails
        · rename_i i' hi
          split
          · exact .fails
          · rename_i row hrow
            exact .answering (Bool.eq_false_of_not_eq_true hfree) hi (storeInvitation_eq_ok.mp hrow)
  | answering p n i row =>
      rw [acceptStatement]
      split
      · exact .fails
      · rename_i db' hinsert
        obtain ⟨hnew, horganisation, _⟩ := insertMembership_eq_ok.mp hinsert
        exact .joined hnew horganisation
  | joined p n i row => exact .accepts
  | _ => exact .waits

theorem revokeStatement_advance (tokenHash : String) (invitationId : Nat) (phase : Phase) :
    Advance db locked now (.revokeInvitation tokenHash invitationId) phase
      (revokeStatement db locked now tokenHash invitationId phase) := by
  cases phase with
  | begun =>
      rw [revokeStatement]
      split
      · exact .fails
      · split
        · exact .reads rfl
        · exact .fails
  | revoking actor =>
      rw [revokeStatement]
      split
      · exact .reads rfl
      · split
        · exact .reads rfl
        · exact .reads rfl
  | revocable n =>
      rw [revokeStatement]
      split
      · exact .reads rfl
      · rename_i i hi
        split
        · exact .reads rfl
        · rename_i hpending
          split
          · exact .waits
          · rename_i hfree
            split
            · exact .fails
            · rename_i row hrow
              exact .revoked (Bool.eq_false_of_not_eq_true hfree) hi (not_not.mp hpending)
                (storeInvitation_eq_ok.mp hrow)
  | revoked n row =>
      cases row with
      | none => exact .revokesNothing
      | some row => exact .revokes
  | _ => exact .waits

theorem mutateStatement_advance (tokenHash : String) (target : Nat) (role status : String) (phase : Phase) :
    Advance db locked now (.mutateMembership tokenHash target role status) phase
      (mutateStatement db locked now tokenHash target role status phase) := by
  cases phase with
  | begun =>
      rw [mutateStatement]
      split
      · exact .fails
      · rename_i organisationId version hsession
        obtain ⟨⟨k, s⟩, hfound, hactive⟩ := Option.bind_eq_some_iff.mp hsession
        exact .entering hfound hactive
  | entering organisationId =>
      rw [mutateStatement]
      split
      · exact .waits
      · rename_i hfree
        exact .entered (Bool.eq_false_of_not_eq_true hfree)
  | entered organisationId =>
      rw [mutateStatement]
      split
      · exact .fails
      · rename_i actor hactor
        split
        · exact .fails
        · split
          · exact .fails
          · rename_i hother
            exact .acting hactor hother
  | acting actor =>
      rw [mutateStatement]
      split
      · exact .fails
      · rename_i m hm
        split
        · exact .fails
        · rename_i hadmin
          rw [not_and, not_or] at hadmin
          split
          · exact .counting hm hadmin
          · rename_i hkeeps
            exact .changing hm hadmin (Bool.eq_false_of_not_eq_true hkeeps)
  | counting actor m =>
      rw [mutateStatement]
      split
      · exact .fails
      · rename_i howners
        exact .counted (Nat.not_le.mp howners)
  | changing actor m =>
      rw [mutateStatement]
      split
      · exact .fails
      · rename_i m' hm'
        exact .changed hm'
  | changed actor m m' =>
      rw [mutateStatement]
      split
      · exact .fails
      · rename_i rows hrows
        split
        · exact .waits
        · rename_i hfree
          apply Advance.ending hrows
          intro p hp
          exact Bool.eq_false_of_not_eq_true fun hlocked => hfree (List.any_eq_true.mpr ⟨p, hp, hlocked⟩)
  | ending actor m m' rows => exact .mutates
  | _ => exact .waits

/-- **What the next statement of a call leads to.** -/
theorem statement_advance (L : Letters) (db : AuthDatabase) (locked : LockedRow → Bool) (now : Instant)
    (call : AuthCall) (phase : Phase) :
    Advance db locked now call phase (statement L db locked now call phase) := by
  cases call with
  | acceptInvitation tokenHash invitationTokenHash => exact acceptStatement_advance tokenHash invitationTokenHash phase
  | revokeInvitation tokenHash invitationId => exact revokeStatement_advance tokenHash invitationId phase
  | mutateMembership tokenHash target role status => exact mutateStatement_advance tokenHash target role status phase

/-! ## The calls beside them -/

/-- What the other calls of the identity service leave as it is: no invitation changes, and a membership is only added
    with an organisation. -/
structure Beside (db db' : AuthDatabase) : Prop where
  invitations : ∃ more, db'.invitations = db.invitations ++ more
  memberships : db'.organisations = db.organisations ∧ db'.memberships = db.memberships ∨
    ∃ name principalId, db'.organisations = db.organisations ++ [{ name := name }] ∧
      db'.memberships = db.memberships.insert (db.organisations.length, principalId) { roleCode := .owner }

theorem Beside.refl (db : AuthDatabase) : Beside db db := ⟨⟨[], (List.append_nil _).symm⟩, Or.inl ⟨rfl, rfl⟩⟩

theorem perform_beside {fresh : String} {op : AuthOperation} (hop : op.interleaves = false) {db' : AuthDatabase}
    (h : db.perform L .postgres fresh now op = .ok db') : Beside db db' := by
  have hsame : ∀ sessions, Beside db { db with sessions := sessions } := fun _ =>
    ⟨⟨[], (List.append_nil _).symm⟩, Or.inl ⟨rfl, rfl⟩⟩
  cases op with
  | createSession principalId activeOrgId =>
      obtain ⟨row, _, rfl⟩ := createSession_effect h
      exact hsame _
  | lookupSession tokenHash =>
      obtain rfl := Except.ok.inj h
      exact .refl _
  | touchSession tokenHash window throttle =>
      obtain ⟨⟨wrote, db₁⟩, hcall, rfl⟩ := map_eq_ok.mp h
      rcases touchSessionThrottled_eq_ok hcall with ⟨_, rfl⟩ | ⟨i, s, row, _, _, _, _, _, rfl⟩
      · exact .refl _
      · exact hsame _
  | switchOrganisation tokenHash targetOrgId =>
      obtain ⟨⟨answer, db₁⟩, hcall, rfl⟩ := map_eq_ok.mp h
      obtain ⟨i, s, m, row, _, _, _, _, _, rfl⟩ := switchOrganisation_eq_ok hcall
      exact hsame _
  | revokeSession tokenHash =>
      obtain ⟨⟨revoked, db₁⟩, hcall, rfl⟩ := map_eq_ok.mp h
      rcases revokeSession_eq_ok hcall with rfl | ⟨i, s, row, _, _, _, rfl⟩
      · exact .refl _
      · exact hsame _
  | revokeAllSessions tokenHash =>
      obtain ⟨⟨count, db₁⟩, hcall, rfl⟩ := map_eq_ok.mp h
      rcases revokeAllSessions_eq_ok hcall with ⟨_, rfl⟩ | ⟨i, s, rows, _, rfl, _⟩
      · exact .refl _
      · exact hsame _
  | createOrganisation tokenHash name =>
      obtain ⟨⟨organisationId, db₁⟩, hcall, rfl⟩ := map_eq_ok.mp h
      obtain ⟨principalId, _, rfl⟩ := createOrganisation_eq_ok hcall
      exact ⟨⟨[], (List.append_nil _).symm⟩, Or.inr ⟨name, principalId, rfl, rfl⟩⟩
  | createInvitation tokenHash email roleCode =>
      obtain ⟨⟨n, db₁⟩, hcall, rfl⟩ := map_eq_ok.mp h
      obtain ⟨row, principalId, _, rfl⟩ := createInvitation_eq_ok hcall
      exact ⟨⟨[row], rfl⟩, Or.inl ⟨rfl, rfl⟩⟩
  | mutateMembership tokenHash targetPrincipalId newRoleCode newStatus => cases hop
  | acceptInvitation tokenHash invitationTokenHash => cases hop
  | revokeInvitation tokenHash n => cases hop

/-- A session that another call has locked does not change. -/
def Unblocked (σ : ConcurrentState) (db : AuthDatabase) : Prop :=
  ∀ r ∈ σ.calls, ∀ i, .session i ∈ r.holds → db.sessions[i]? = σ.db.sessions[i]?

theorem unblocked_of_blocks {σ : ConcurrentState} (h : σ.blocks db = false) : Unblocked σ db := by
  intro r hr i hi
  have hrow := List.any_eq_false.mp (Bool.eq_false_of_not_eq_true (List.any_eq_false.mp h r hr)) _ hi
  rw [decide_eq_true_eq, not_not] at hrow
  exact hrow

/-- **What runs beside the calls with a mutex.** -/
theorem beside_effect (L : Letters) (tokens : Nat → String) (σ : ConcurrentState) (now : Instant) (op : AuthOperation) :
    Effect .postgres op (tokens σ.generated) now σ.db (σ.beside L tokens now op) ∧
      Beside σ.db (σ.beside L tokens now op) ∧ Unblocked σ (σ.beside L tokens now op) := by
  unfold ConcurrentState.beside
  split
  · exact ⟨.nothing, .refl _, fun _ _ _ _ => rfl⟩
  · rename_i hop
    split
    · exact ⟨.nothing, .refl _, fun _ _ _ _ => rfl⟩
    · rename_i db h
      split
      · exact ⟨.nothing, .refl _, fun _ _ _ _ => rfl⟩
      · rename_i hblocks
        exact ⟨perform_effect h, perform_beside (Bool.eq_false_of_not_eq_true hop) h,
          unblocked_of_blocks (Bool.eq_false_of_not_eq_true hblocks)⟩

/-! ## Locks -/

/-- A call keeps its locks, or takes ones that are free. -/
theorem Advance.takes {call : AuthCall} {phase phase' : Phase} (h : Advance db locked now call phase (.goes phase')) :
    ∀ row ∈ phase'.holds, row ∈ phase.holds ∨ locked row = false := by
  intro row hrow
  cases h with
  | reads hplain =>
      rw [Phase.holds_of_plain hplain] at hrow
      exact absurd hrow List.not_mem_nil
  | joining hfree =>
      obtain rfl := List.mem_singleton.mp hrow
      exact Or.inr hfree
  | answering hfree _ _ =>
      rcases List.mem_cons.mp hrow with rfl | hrow
      · exact Or.inl List.mem_cons_self
      · obtain rfl := List.mem_singleton.mp hrow
        exact Or.inr hfree
  | joined _ _ => exact Or.inl hrow
  | revoked hfree _ _ _ =>
      obtain rfl := List.mem_singleton.mp hrow
      exact Or.inr hfree
  | entering _ _ => exact absurd hrow List.not_mem_nil
  | entered hfree =>
      obtain rfl := List.mem_singleton.mp hrow
      exact Or.inr hfree
  | acting _ _ => exact Or.inl hrow
  | counting _ _ => exact Or.inl hrow
  | changing _ _ _ => exact Or.inl hrow
  | counted _ => exact Or.inl hrow
  | changed _ => exact Or.inl hrow
  | ending _ hfree =>
      rcases List.mem_cons.mp hrow with rfl | hrow
      · exact Or.inl List.mem_cons_self
      · obtain ⟨p, hp, rfl⟩ := List.mem_map.mp hrow
        exact Or.inr (hfree p hp)

theorem RunningCall.holds_abort (r : RunningCall) : ∀ row ∈ r.abort.holds, row ∈ r.holds := by
  intro row hrow
  unfold RunningCall.abort at hrow
  split at hrow
  · exact hrow
  · exact absurd hrow List.not_mem_nil

/-- The locks of a call after its next statement. -/
theorem ConcurrentState.takes (L : Letters) (σ : ConcurrentState) (callId : Nat) (r : RunningCall) :
    ∀ row ∈ (σ.next L callId r).1.holds,
      row ∈ r.holds ∨ busy RunningCall.holds σ.calls callId row = false := by
  intro row hrow
  unfold ConcurrentState.next at hrow
  have hadvance := statement_advance L σ.db (busy RunningCall.holds σ.calls callId) r.startedAt r.call r.phase
  cases hstatement : statement L σ.db (busy RunningCall.holds σ.calls callId) r.startedAt r.call r.phase with
  | waits =>
      rw [hstatement] at hrow
      exact Or.inl hrow
  | goes phase =>
      rw [hstatement] at hrow hadvance
      exact hadvance.takes row hrow
  | fails e =>
      rw [hstatement] at hrow
      exact absurd hrow List.not_mem_nil
  | commits answer db =>
      rw [hstatement] at hrow
      exact absurd hrow List.not_mem_nil

theorem exclusive_step (L : Letters) (tokens : Nat → String) {σ : ConcurrentState} (h : Exclusive RunningCall.holds σ.calls)
    (action : Nat × ConcurrentAction) : Exclusive RunningCall.holds (σ.step L tokens action).calls := by
  unfold ConcurrentState.step
  cases action.2 with
  | start call => exact h.append rfl
  | next callId =>
      dsimp only
      split
      · exact h
      · rename_i r hr
        exact h.set hr (σ.takes L callId r)
  | abort callId =>
      dsimp only
      split
      · exact h
      · rename_i r hr
        exact h.set hr fun row hrow => Or.inl (r.holds_abort row hrow)
  | other op => exact h

end Untangle
