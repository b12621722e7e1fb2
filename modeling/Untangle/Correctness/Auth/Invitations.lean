import Untangle.Correctness.Auth.Acceptance
import Untangle.Correctness.Auth.Statements
import Untangle.Lib.Runs

/-!
# `Correctness.Auth.Invitations` — when an invitation is used once

The update of an acceptance looks neither at the status nor at the expiry again. What it meets is a row that it has
locked: a revoked one violates the lifecycle of the table, and one that is accepted violates the uniqueness of the
membership if it was accepted by the same principal. Two principals with the same e-mail address are both let in. The
invariant says what the row of an invitation is while a call that has locked it goes on (`Answers`).
-/

namespace Untangle

open Lib AuthDatabase

variable {L : Letters} {tokens : Nat → String}

/-! ## What a call relies on -/

/-- The status of an invitation. -/
def StatusOf (db : AuthDatabase) (n : Nat) (P : InvitationStatus → Prop) : Prop :=
  ∃ i : InvitationRecord, db.invitations[n]? = some i ∧ P i.val.status

/-- What a call knows of the invitation that it has locked or answered. -/
def Answers (db : AuthDatabase) : Phase → Prop
  | .answering p n i row => row.val.status = .accepted ∧ ∃ i' : InvitationRecord, db.invitations[n]? = some i' ∧
      i'.val.status ≠ .revoked ∧
      (i'.val.status = .accepted → (db.memberships.get? (i.organisationId, p)).isSome = true)
  | .joined _ n _ row => row.val.status = .accepted ∧
      StatusOf db n fun status => status ≠ .revoked ∧ status ≠ .accepted
  | .revoked n (some row) => row.val.status = .revoked ∧ StatusOf db n fun status => status = .pending
  | .committed (.accepted n _ _) => StatusOf db n fun status => status = .accepted
  | .committed (.revoked n true) => StatusOf db n fun status => status = .revoked
  | _ => True

/-- The invitation that a call has accepted. -/
def acceptedOf (r : RunningCall) : List Nat :=
  match r.phase with
  | .committed (.accepted n _ _) => [n]
  | _ => []

structure Invited (σ : ConcurrentState) : Prop where
  exclusive : Exclusive RunningCall.holds σ.calls
  answers : ∀ (j : Nat) (r : RunningCall), σ.calls[j]? = some r → Answers σ.db r.phase
  /-- No invitation is accepted by two calls. -/
  once : Exclusive acceptedOf σ.calls

/-! ## What the others leave as it is -/

/-- Invitations and memberships that are there stay. -/
structure KeepsRows (db db' : AuthDatabase) : Prop where
  invitations : ∀ (n : Nat) (i : InvitationRecord), db.invitations[n]? = some i → db'.invitations[n]? = some i
  memberships : ∀ k, (db.memberships.get? k).isSome = true → (db'.memberships.get? k).isSome = true

theorem isSome_get?_insert {ms : Dict (Nat × Nat) OrganisationMembership} {k k' : Nat × Nat}
    {m : OrganisationMembership} (h : (ms.get? k).isSome = true) : ((ms.insert k' m).get? k).isSome = true := by
  rw [Dict.get?_insert]
  split
  · rfl
  · exact h

theorem Beside.keepsRows {db db' : AuthDatabase} (h : Beside db db') : KeepsRows db db' where
  invitations := by
    obtain ⟨more, hmore⟩ := h.invitations
    intro n i hi
    rw [hmore, List.getElem?_append_left (List.getElem?_eq_some_iff.mp hi).1]
    exact hi
  memberships := by
    rcases h.memberships with ⟨_, hsame⟩ | ⟨name, principalId, _, hadded⟩
    · intro k hk
      rw [hsame]
      exact hk
    · intro k hk
      rw [hadded]
      exact isSome_get?_insert hk

theorem StatusOf.keep {db db' : AuthDatabase} {n : Nat} {P : InvitationStatus → Prop} (h : StatusOf db n P)
    (hkeeps : ∀ i : InvitationRecord, db.invitations[n]? = some i → db'.invitations[n]? = some i) : StatusOf db' n P := by
  obtain ⟨i, hi, hstatus⟩ := h
  exact ⟨i, hkeeps i hi, hstatus⟩

theorem Answers.keep {db db' : AuthDatabase} {phase : Phase} (h : Answers db phase) (hkeeps : KeepsRows db db') :
    Answers db' phase := by
  cases phase with
  | answering p n i row =>
      obtain ⟨hrow, i', hi', hrevoked, haccepted⟩ := h
      exact ⟨hrow, i', hkeeps.invitations n i' hi', hrevoked, fun h => hkeeps.memberships _ (haccepted h)⟩
  | joined p n i row => exact ⟨h.1, h.2.keep (hkeeps.invitations n)⟩
  | revoked n row =>
      cases row with
      | none => trivial
      | some row => exact ⟨h.1, h.2.keep (hkeeps.invitations n)⟩
  | committed answer =>
      cases answer with
      | accepted n o p => exact StatusOf.keep (P := fun status => status = .accepted) h (hkeeps.invitations n)
      | revoked n changed =>
          cases changed with
          | true => exact StatusOf.keep (P := fun status => status = .revoked) h (hkeeps.invitations n)
          | false => trivial
      | mutated actor target => trivial
  | _ => trivial

/-- An invitation is written by the call that has locked it: what another call knows is about another invitation, or it
    has answered this one before. -/
theorem Answers.set {db : AuthDatabase} {memberships : Dict (Nat × Nat) OrganisationMembership} {n : Nat}
    {i row : InvitationRecord} {r : RunningCall} (hi : db.invitations[n]? = some i)
    (hopen : i.val.status ≠ .revoked ∧ i.val.status ≠ .accepted)
    (hmemberships : ∀ k, (db.memberships.get? k).isSome = true → (memberships.get? k).isSome = true)
    (hfree : .invitation n ∉ r.holds) (h : Answers db r.phase) :
    Answers { db with invitations := db.invitations.set n row, memberships := memberships } r.phase := by
  have hother : ∀ m j, n ≠ m → db.invitations[m]? = some j → (db.invitations.set n row)[m]? = some j := by
    intro m j hne hj
    rw [List.getElem?_set_ne hne]
    exact hj
  have hclosed : ∀ m (P : InvitationStatus → Prop), StatusOf db m P → ¬ P i.val.status →
      StatusOf { db with invitations := db.invitations.set n row, memberships := memberships } m P := by
    intro m P hstatus hnot
    obtain ⟨j, hj, hP⟩ := hstatus
    refine ⟨j, hother m j ?_ hj, hP⟩
    rintro rfl
    obtain rfl := Option.some.inj (hi.symm.trans hj)
    exact hnot hP
  unfold RunningCall.holds at hfree
  cases hphase : r.phase with
  | answering p m i' row' =>
      rw [hphase] at h hfree
      obtain ⟨hrow, j, hj, hrevoked, haccepted⟩ := h
      have hne : n ≠ m := fun heq => hfree (by rw [heq]; exact List.mem_cons_of_mem _ (List.mem_singleton.mpr rfl))
      exact ⟨hrow, j, hother m j hne hj, hrevoked, fun h => hmemberships _ (haccepted h)⟩
  | joined p m i' row' =>
      rw [hphase] at h hfree
      have hne : n ≠ m := fun heq => hfree (by rw [heq]; exact List.mem_cons_of_mem _ (List.mem_singleton.mpr rfl))
      exact ⟨h.1, h.2.keep fun j hj => hother m j hne hj⟩
  | revoked m row' =>
      cases row' with
      | none => trivial
      | some row' =>
          rw [hphase] at h hfree
          have hne : n ≠ m := fun heq => hfree (by rw [heq]; exact List.mem_singleton.mpr rfl)
          exact ⟨h.1, h.2.keep fun j hj => hother m j hne hj⟩
  | committed answer =>
      rw [hphase] at h
      cases answer with
      | accepted m o p => exact hclosed m (fun status => status = .accepted) h hopen.2
      | revoked m changed =>
          cases changed with
          | true => exact hclosed m (fun status => status = .revoked) h hopen.1
          | false => trivial
      | mutated actor target => trivial
  | _ => trivial

/-! ## Steps -/

/-- An acceptance that updates its invitation does not meet one that another principal has accepted since its status was
    read. -/
def UpdatesOpen (σ : ConcurrentState) (action : Nat × ConcurrentAction) : Prop :=
  ∀ callId r p n i, action.2 = .next callId → σ.calls[callId]? = some r → r.phase = .joining p n i →
    StatusOf σ.db n (fun status => status = .accepted) →
    (σ.db.memberships.get? (i.organisationId, p)).isSome = true

/-- What the next statement of a call makes of what the calls know. -/
structure KnownAfter (σ : ConcurrentState) (callId : Nat) (r r' : RunningCall) (db : AuthDatabase) : Prop where
  self : Answers db r'.phase
  others : ∀ (j : Nat) (q : RunningCall), j ≠ callId → σ.calls[j]? = some q → Answers σ.db q.phase → Answers db q.phase
  accepts : ∀ n ∈ acceptedOf r', n ∈ acceptedOf r ∨ StatusOf σ.db n fun status => status ≠ .accepted

theorem knownAfter_goes {σ : ConcurrentState} {callId : Nat} {r : RunningCall} {phase : Phase}
    (h : Answers σ.db phase) (haccepts : acceptedOf { r with phase := phase } = []) :
    KnownAfter σ callId r { r with phase := phase } σ.db where
  self := h
  others := fun _ _ _ _ h => h
  accepts := fun n hn => by
    rw [haccepts] at hn
    exact absurd hn List.not_mem_nil

theorem answers_of_plain {db : AuthDatabase} {phase : Phase} (h : phase.plain = true) : Answers db phase := by
  cases phase with
  | revoked n row =>
      cases row with
      | none => trivial
      | some row => cases h
  | called _ _ => trivial
  | invited _ _ _ => trivial
  | revoking _ => trivial
  | revocable _ => trivial
  | _ => cases h

theorem acceptedOf_plain {r : RunningCall} {phase : Phase} (h : phase.plain = true) :
    acceptedOf { r with phase := phase } = [] := by
  cases phase with
  | committed answer => cases h
  | _ => rfl

/-- An invitation with a revocation cannot be accepted (`chk_invitations_lifecycle`). -/
theorem not_revoked_of_accepted {i row : InvitationRecord} {now : Instant}
    (hrow : row.val = { i.val with status := .accepted, acceptedAt := some now }) : i.val.status ≠ .revoked := by
  intro hrevoked
  have hrowCheck := row.property
  have hcheck := i.property
  rw [hrow] at hrowCheck
  simp only [OrganisationInvitation.check, OrganisationInvitation.lifecycle, hrevoked, Bool.and_eq_true] at hrowCheck hcheck
  have hnone := hrowCheck.1.2
  rw [Option.isNone_iff_eq_none] at hnone
  rw [hnone] at hcheck
  exact absurd hcheck.1.1 Bool.false_ne_true

/-- **What one statement of a call makes of what the calls know.** -/
theorem knownAfter_next {σ : ConcurrentState} (hσ : Invited σ) {callId : Nat} {r : RunningCall}
    (hr : σ.calls[callId]? = some r) {elapsed : Nat} (hopen : UpdatesOpen σ (elapsed, .next callId)) :
    KnownAfter σ callId r (σ.next L callId r).1 (σ.next L callId r).2 := by
  have hself := hσ.answers callId r hr
  have hadvance := statement_advance L σ.db (busy RunningCall.holds σ.calls callId) r.startedAt r.call r.phase
  have hjoining := fun p n i => hopen callId r p n i rfl hr
  have hholds : ∀ n, .invitation n ∈ r.phase.holds → ∀ (j : Nat) (q : RunningCall), j ≠ callId →
      σ.calls[j]? = some q → .invitation n ∉ q.holds :=
    fun n hn j q hj hq => hσ.exclusive.ne hr hq hj hn
  unfold ConcurrentState.next
  revert hself hadvance hjoining hholds
  generalize statement L σ.db (busy RunningCall.holds σ.calls callId) r.startedAt r.call r.phase = outcome
  generalize r.call = call
  generalize hphase : r.phase = phase
  intro hself hadvance hjoining hholds
  cases hadvance with
  | waits =>
      refine ⟨by rw [← hphase] at hself; exact hself, fun _ _ _ _ h => h, fun n hn => Or.inl hn⟩
  | fails => exact knownAfter_goes trivial rfl
  | reads hplain => exact knownAfter_goes (answers_of_plain hplain) (acceptedOf_plain hplain)
  | joining _ => exact knownAfter_goes trivial rfl
  | @answering _ _ p n i i' row _ hi hrow =>
      apply knownAfter_goes _ rfl
      refine ⟨by rw [hrow], i', hi, not_revoked_of_accepted hrow, fun haccepted => ?_⟩
      exact hjoining p n i rfl ⟨i', hi, haccepted⟩
  | @joined _ _ p n i row hnew _ =>
      apply knownAfter_goes _ rfl
      obtain ⟨hrow, i', hi', hrevoked, haccepted⟩ := hself
      refine ⟨hrow, i', hi', hrevoked, fun hstatus => ?_⟩
      -- The principal would be a member already.
      have hmember := haccepted hstatus
      rw [hnew] at hmember
      cases hmember
  | @accepts _ _ p n i row =>
      obtain ⟨hrow, i', hi', hrevoked, hstatus⟩ := hself
      have hlt := (List.getElem?_eq_some_iff.mp hi').1
      refine ⟨⟨row, List.getElem?_set_self hlt, hrow⟩, fun j q hj hq hq' => ?_, fun m hm => ?_⟩
      · exact hq'.set hi' ⟨hrevoked, hstatus⟩ (fun k hk => isSome_get?_insert hk)
          (hholds n (List.mem_cons_of_mem _ (List.mem_singleton.mpr rfl)) j q hj hq)
      · obtain rfl := List.mem_singleton.mp hm
        exact Or.inr ⟨i', hi', hstatus⟩
  | @revoked _ n i row _ hi hpending hrow _ =>
      apply knownAfter_goes _ rfl
      exact ⟨by rw [hrow], i, hi, hpending⟩
  | revokesNothing => exact ⟨trivial, fun _ _ _ _ h => h, fun _ hn => absurd hn List.not_mem_nil⟩
  | @revokes _ n _ row =>
      obtain ⟨hrow, i, hi, hpending⟩ := hself
      have hlt := (List.getElem?_eq_some_iff.mp hi).1
      refine ⟨⟨row, List.getElem?_set_self hlt, hrow⟩, fun j q hj hq hq' => ?_,
        fun _ hn => absurd hn List.not_mem_nil⟩
      exact hq'.set hi ⟨by rw [hpending]; nofun, by rw [hpending]; nofun⟩ (fun k hk => hk)
        (hholds n (List.mem_singleton.mpr rfl) j q hj hq)
  | entering _ _ => exact knownAfter_goes trivial rfl
  | entered _ => exact knownAfter_goes trivial rfl
  | acting _ _ => exact knownAfter_goes trivial rfl
  | counting _ _ => exact knownAfter_goes trivial rfl
  | changing _ _ _ => exact knownAfter_goes trivial rfl
  | counted _ => exact knownAfter_goes trivial rfl
  | changed _ => exact knownAfter_goes trivial rfl
  | ending _ _ => exact knownAfter_goes trivial rfl
  | mutates =>
      refine ⟨trivial, fun _ _ _ _ h => ?_, fun _ hn => absurd hn List.not_mem_nil⟩
      exact h.keep ⟨fun _ _ hi => hi, fun _ hk => isSome_get?_insert hk⟩

theorem acceptedOf_answers {σ : ConcurrentState} (hσ : Invited σ) {j : Nat} {q : RunningCall}
    (hq : σ.calls[j]? = some q) {n : Nat} (hn : n ∈ acceptedOf q) :
    StatusOf σ.db n fun status => status = .accepted := by
  have h := hσ.answers j q hq
  unfold acceptedOf at hn
  split at hn
  · rename_i m o p hphase
    obtain rfl := List.mem_singleton.mp hn
    rw [hphase] at h
    exact h
  · exact absurd hn List.not_mem_nil

theorem acceptedOf_abort (r : RunningCall) : ∀ n ∈ acceptedOf r.abort, n ∈ acceptedOf r := by
  intro n hn
  unfold RunningCall.abort at hn
  split at hn
  · exact hn
  · exact absurd hn List.not_mem_nil

/-- **The invariant of invitations is kept by every step that meets the condition.** -/
theorem Invited.step {σ : ConcurrentState} (hσ : Invited σ) {action : Nat × ConcurrentAction}
    (hopen : UpdatesOpen σ action) : Invited (σ.step L tokens action) where
  exclusive := exclusive_step L tokens hσ.exclusive action
  answers := by
    obtain ⟨elapsed, action⟩ := action
    cases action with
    | start call => exact forall_append hσ.answers trivial
    | next callId =>
        unfold ConcurrentState.step
        dsimp only
        split
        · exact hσ.answers
        · rename_i r hr
          have hknown := knownAfter_next (L := L) hσ hr hopen
          exact forall_set hσ.answers hknown.self hknown.others
    | abort callId =>
        unfold ConcurrentState.step
        dsimp only
        split
        · exact hσ.answers
        · rename_i r hr
          apply forall_set hσ.answers _ fun _ _ _ _ h => h
          unfold RunningCall.abort
          split
          · exact hσ.answers callId r hr
          · trivial
    | other op =>
        intro j r hr
        exact (hσ.answers j r hr).keep (beside_effect L tokens σ (σ.clock + elapsed) op).2.1.keepsRows
  once := by
    obtain ⟨elapsed, action⟩ := action
    cases action with
    | start call => exact hσ.once.append rfl
    | next callId =>
        unfold ConcurrentState.step
        dsimp only
        split
        · exact hσ.once
        · rename_i r hr
          apply hσ.once.set hr
          intro n hn
          rcases (knownAfter_next (L := L) hσ hr hopen).accepts n hn with hn | ⟨i, hi, hstatus⟩
          · exact Or.inl hn
          · apply Or.inr
            rw [busy_eq_false]
            intro j q hq hn
            obtain ⟨i', hi', haccepted⟩ := acceptedOf_answers hσ hq hn
            obtain rfl := Option.some.inj (hi.symm.trans hi')
            exact absurd haccepted hstatus
    | abort callId =>
        unfold ConcurrentState.step
        dsimp only
        split
        · exact hσ.once
        · rename_i r hr
          exact hσ.once.set hr fun n hn => Or.inl (acceptedOf_abort r n hn)
    | other op => exact hσ.once

/-! ## Runs -/

/-- An acceptance of an invitation has committed. -/
def RunningCall.accepts (n : Nat) (r : RunningCall) : Bool :=
  match r.phase with
  | .committed (.accepted m _ _) => m = n
  | _ => false

/-- A revocation of an invitation has committed, and answered that it revoked it. -/
def RunningCall.revokes (n : Nat) (r : RunningCall) : Bool :=
  match r.phase with
  | .committed (.revoked m true) => m = n
  | _ => false

/-- The membership that a call has created from an invitation. -/
def RunningCall.createdFrom (n : Nat) (r : RunningCall) : Option (Nat × Nat) :=
  match r.phase with
  | .committed (.accepted m organisationId principalId) => if m = n then some (organisationId, principalId) else none
  | _ => none

/-- An invitation is used once, and its revocation is final. -/
structure UsedOnce (n : Nat) (σ : ConcurrentState) : Prop where
  accepted : σ.calls.countP (RunningCall.accepts n) ≤ 1
  created : (σ.calls.filterMap (RunningCall.createdFrom n)).length ≤ 1
  /-- Not both of an acceptance and a revocation have committed. -/
  final : ∀ r ∈ σ.calls, ∀ q ∈ σ.calls, r.revokes n = true → q.accepts n = false

theorem mem_acceptedOf {n : Nat} {r : RunningCall} (h : r.accepts n = true) : n ∈ acceptedOf r := by
  unfold RunningCall.accepts at h
  split at h
  · rename_i m o p hphase
    rw [acceptedOf, hphase]
    exact List.mem_singleton.mpr (of_decide_eq_true h).symm
  · cases h

theorem createdFrom_isSome (n : Nat) (r : RunningCall) : (r.createdFrom n).isSome = r.accepts n := by
  unfold RunningCall.createdFrom RunningCall.accepts
  split
  · split
    · rename_i h
      rw [decide_eq_true h]
      rfl
    · rename_i h
      rw [decide_eq_false h]
      rfl
  · rfl

theorem Invited.usedOnce {σ : ConcurrentState} (hσ : Invited σ) (n : Nat) : UsedOnce n σ where
  accepted := hσ.once.countP_le_one fun r hr => mem_acceptedOf hr
  created := by
    rw [List.length_filterMap_eq_countP]
    exact hσ.once.countP_le_one fun r hr => mem_acceptedOf (by rw [← createdFrom_isSome]; exact hr)
  final := by
    intro r hr q hq hrevokes
    by_contra haccepts
    obtain ⟨j, hj⟩ := List.mem_iff_getElem?.mp hq
    obtain ⟨i, hi, haccepted⟩ := acceptedOf_answers hσ hj (mem_acceptedOf (Bool.eq_true_of_not_eq_false haccepts))
    obtain ⟨k, hk⟩ := List.mem_iff_getElem?.mp hr
    have hanswers := hσ.answers k r hk
    unfold RunningCall.revokes at hrevokes
    split at hrevokes
    · rename_i m hphase
      obtain rfl := of_decide_eq_true hrevokes
      rw [hphase] at hanswers
      obtain ⟨i', hi', hrevoked⟩ := hanswers
      obtain rfl := Option.some.inj (hi.symm.trans hi')
      rw [haccepted] at hrevoked
      cases hrevoked
    · cases hrevokes

/-- **Invitations are used once, and revocations are final, in every run in which no acceptance updates an invitation
    that another principal has accepted since its status was read.** -/
theorem usedOnce_of_updatesOpen (L : Letters) (tokens : Nat → String) (σ₀ : AuthState)
    (actions : List (Nat × ConcurrentAction))
    (h : Meets (ConcurrentState.step L tokens) UpdatesOpen ⟨σ₀, []⟩ actions) (n : Nat) :
    UsedOnce n (run (ConcurrentState.step L tokens) ⟨σ₀, []⟩ actions) := by
  have hinit : Invited ⟨σ₀, []⟩ := ⟨exclusive_nil, fun _ _ hr =>
    absurd (List.mem_of_getElem? hr) List.not_mem_nil, exclusive_nil⟩
  exact (run_invariant _ (fun σ action hσ hopen => hσ.step hopen) hinit h).usedOnce n

/-! ## Two principals of one address -/

/-- An owner has invited the address of two other principals. -/
def invitesAddress : AuthState :=
  run (AuthState.step plainLetters unaryToken .postgres)
    (AuthState.initial [{ email := "o" }, { email := "m" }, { email := "m" }] 0)
    [(0, .createSession 0 none), (0, .createSession 1 none), (0, .createSession 2 none),
      (0, .createOrganisation (unaryToken 0) "org"), (0, .switchOrganisation (unaryToken 0) 0),
      (0, .createInvitation (unaryToken 4) "m" "operator")]

/-- Statements of the given calls, one after the other. -/
def statementsOf (callIds : List Nat) : List (Nat × ConcurrentAction) := callIds.map fun callId => (0, .next callId)

theorem updatesOpen_of_none {σ : ConcurrentState} {action : Nat × ConcurrentAction}
    (h : (σ.db.invitations.all fun i => i.val.status ≠ .accepted) = true) : UpdatesOpen σ action := by
  rintro callId r p n i _ _ _ ⟨i', hi', haccepted⟩
  exact absurd haccepted (of_decide_eq_true (List.all_eq_true.mp h i' (List.mem_of_getElem? hi')))

theorem usedOnce_oneAccepts :
    UsedOnce 0 (run (ConcurrentState.step plainLetters unaryToken) ⟨invitesAddress, []⟩
      ((0, .start (.acceptInvitation (unaryToken 1) (unaryToken 5))) :: statementsOf [0, 0, 0, 0, 0, 0])) := by
  apply usedOnce_of_updatesOpen
  exact ⟨updatesOpen_of_none (by decide +kernel), updatesOpen_of_none (by decide +kernel),
    updatesOpen_of_none (by decide +kernel), updatesOpen_of_none (by decide +kernel),
    updatesOpen_of_none (by decide +kernel), updatesOpen_of_none (by decide +kernel),
    updatesOpen_of_none (by decide +kernel), trivial⟩

/-- Both accept: each reads the pending invitation before the other has updated it. -/
def bothAccept : List (Nat × ConcurrentAction) :=
  [(0, .start (.acceptInvitation (unaryToken 1) (unaryToken 5))),
    (0, .start (.acceptInvitation (unaryToken 2) (unaryToken 5)))] ++
    statementsOf [0, 0, 1, 1, 0, 0, 0, 0, 1, 1, 1, 1]

theorem bothAccept_twice :
    ¬ UsedOnce 0 (run (ConcurrentState.step plainLetters unaryToken) ⟨invitesAddress, []⟩ bothAccept) := by
  intro h
  have hcount : (run (ConcurrentState.step plainLetters unaryToken) ⟨invitesAddress, []⟩ bothAccept).calls.countP
      (RunningCall.accepts 0) = 2 := by decide +kernel
  exact absurd h.accepted (by rw [hcount]; decide)

end Untangle
