import Untangle.Correctness.Auth.Shrinking
import Untangle.Correctness.Auth.Statements

/-!
# `Correctness.Auth.Owners` — every organisation keeps an active owner

The members of an organisation change under its lock only, so the owners that a call has counted after it took the lock
are the ones there are when it commits. What a call relies on between two of its statements is `Relies`; it names the
tables under the locks that the call holds, so the steps of other calls keep it.
-/

namespace Untangle

open Lib AuthDatabase

variable {L : Letters} {tokens : Nat → String} {db db' : AuthDatabase}

/-! ## Counting owners -/

theorem Role.ofCode_code (role : Role) : Role.ofCode? role.code = some role := by
  cases role <;> rfl

theorem MembershipStatus.ofCode_code (status : MembershipStatus) : MembershipStatus.ofCode? status.code = some status := by
  cases status <;> rfl

theorem Role.code_of_ofCode {code : String} {role : Role} (h : Role.ofCode? code = some role) : role.code = code := by
  unfold Role.ofCode? at h
  have hfound := List.find?_some h
  exact of_decide_eq_true hfound

/-- An active owner of an organisation. -/
def owns (organisationId : Nat) (p : (Nat × Nat) × OrganisationMembership) : Bool :=
  p.1.1 = organisationId && p.2.roleCode = .owner && p.2.status = .active

theorem activeOwners_insert (db : AuthDatabase) (o : Nat) (k : Nat × Nat) (m : OrganisationMembership) :
    { db with memberships := db.memberships.insert k m }.activeOwners o +
        ((db.memberships.get? k).elim 0 fun m => (owns o (k, m)).toNat) =
      db.activeOwners o + (owns o (k, m)).toNat := Dict.countP_insert (owns o) db.memberships k m

theorem owns_ne {o : Nat} {k : Nat × Nat} (h : k.1 ≠ o) (m : OrganisationMembership) : owns o (k, m) = false := by
  unfold owns
  rw [decide_eq_false h]
  rfl

theorem owns_iff {o p : Nat} {m : OrganisationMembership} :
    owns o ((o, p), m) = true ↔ m.roleCode = .owner ∧ m.status = .active := by
  simp [owns]

/-- The members of another organisation. -/
theorem activeOwners_insert_ne {o : Nat} {k : Nat × Nat} (h : k.1 ≠ o) (m : OrganisationMembership) :
    { db with memberships := db.memberships.insert k m }.activeOwners o = db.activeOwners o := by
  have hinsert := activeOwners_insert db o k m
  rw [owns_ne h m] at hinsert
  cases hk : db.memberships.get? k with
  | none =>
      rw [hk] at hinsert
      exact hinsert
  | some m' =>
      rw [hk, Option.elim_some, owns_ne h m'] at hinsert
      exact hinsert

/-- A new member takes no owner away. -/
theorem activeOwners_insert_new {o : Nat} {k : Nat × Nat} (h : db.memberships.get? k = none)
    (m : OrganisationMembership) :
    db.activeOwners o ≤ { db with memberships := db.memberships.insert k m }.activeOwners o := by
  have hinsert := activeOwners_insert db o k m
  rw [h, Option.elim_none] at hinsert
  omega

/-- **A change that was let through leaves an owner.** -/
theorem activeOwners_mutated {o target : Nat} {m m' : OrganisationMembership} {role status : String}
    (hm : db.memberships.get? (o, target) = some m) (hm' : mutated m role status = .ok m')
    (hspares : demotes m role status = true → 1 < db.activeOwners o) (howners : 1 ≤ db.activeOwners o) :
    1 ≤ { db with memberships := db.memberships.insert (o, target) m' }.activeOwners o := by
  have hinsert := activeOwners_insert db o (o, target) m'
  rw [hm, Option.elim_some] at hinsert
  by_cases howned : owns o ((o, target), m) = true
  · by_cases hdemotes : demotes m role status = true
    · have hle := Bool.toNat_le (owns o ((o, target), m))
      have hspared := hspares hdemotes
      omega
    · -- The member is the same owner as before.
      obtain ⟨hrole, hstatus, _⟩ := mutated_eq_ok hm'
      obtain ⟨howner, hactive⟩ := owns_iff.mp howned
      have hsame : role = Role.owner.code ∧ status = MembershipStatus.active.code := by
        simp only [demotes, howner, hactive, decide_true, Bool.true_and, Bool.or_eq_true, decide_eq_true_eq, not_or,
          not_not, ne_eq] at hdemotes
        exact hdemotes
      have hkept : owns o ((o, target), m') = true := by
        rw [hsame.1, Role.ofCode_code] at hrole
        rw [hsame.2, MembershipStatus.ofCode_code] at hstatus
        exact owns_iff.mpr ⟨(Option.some.inj hrole).symm, (Option.some.inj hstatus).symm⟩
      rw [howned, hkept] at hinsert
      omega
  · rw [Bool.eq_false_of_not_eq_true howned, Bool.toNat_false] at hinsert
    omega

/-! ## What a call relies on -/

/-- A token is the one of a session that is bound to an organisation; it has been given out, so no other session will
    have it. -/
structure BoundTo (tokens : Nat → String) (generated : Nat) (db : AuthDatabase) (tokenHash : String) (o : Nat) :
    Prop where
  given : ∃ n < generated, tokenHash = tokens n
  bound : ∀ s ∈ db.sessions, s.val.sessionTokenHash = tokenHash → s.val.active.map Prod.fst = some o

/-- The caller of a mutation, as it was read under the lock: not the member that is to be changed. -/
def Acts (db : AuthDatabase) (actor : Actor) (target : Nat) : Prop :=
  actor.principalId ≠ target ∧ ∃ m, db.memberships.get? (actor.organisationId, actor.principalId) = some m ∧
    m.roleCode = actor.roleCode

/-- The member that is to be changed: an administrator neither changes an owner nor makes one. -/
def Targets (db : AuthDatabase) (actor : Actor) (target : Nat) (role : String) (m : OrganisationMembership) : Prop :=
  db.memberships.get? (actor.organisationId, target) = some m ∧
    (actor.roleCode = .admin → m.roleCode ≠ .owner ∧ role ≠ Role.owner.code)

/-- A change that leaves an owner. -/
def Spares (db : AuthDatabase) (actor : Actor) (role status : String) (m : OrganisationMembership) : Prop :=
  demotes m role status = true → 1 < db.activeOwners actor.organisationId

/-- A row that differs from a session of the database in what does not bind it only. -/
def Rewrites (db : AuthDatabase) (p : Nat × SessionRecord) : Prop :=
  ∃ s, db.sessions[p.1]? = some s ∧ p.2.val.sessionTokenHash = s.val.sessionTokenHash ∧ p.2.val.active = s.val.active

/-- What a call relies on, with the rows under its locks as they are. -/
def Relies (tokens : Nat → String) (generated : Nat) (db : AuthDatabase) : AuthCall → Phase → Prop
  | .acceptInvitation _ _, .joined p _ i _ =>
    db.memberships.get? (i.organisationId, p) = none ∧ i.organisationId < db.organisations.length
  | .mutateMembership tokenHash _ _ _, .entering o | .mutateMembership tokenHash _ _ _, .entered o =>
    BoundTo tokens generated db tokenHash o
  | .mutateMembership _ target _ _, .acting actor => Acts db actor target
  | .mutateMembership _ target role _, .counting actor m => Acts db actor target ∧ Targets db actor target role m
  | .mutateMembership _ target role status, .changing actor m =>
    Acts db actor target ∧ Targets db actor target role m ∧ Spares db actor role status m
  | .mutateMembership _ target role status, .changed actor m m' =>
    Acts db actor target ∧ Targets db actor target role m ∧ Spares db actor role status m ∧
      mutated m role status = .ok m'
  | .mutateMembership _ target role status, .ending actor m m' rows =>
    Acts db actor target ∧ Targets db actor target role m ∧ Spares db actor role status m ∧
      mutated m role status = .ok m' ∧ ∀ p ∈ rows, Rewrites db p
  | _, _ => True

structure Owned (tokens : Nat → String) (σ : ConcurrentState) : Prop where
  exclusive : Exclusive RunningCall.holds σ.calls
  /-- Members are of organisations that exist, -/
  grounded : ∀ k m, σ.db.memberships.get? k = some m → k.1 < σ.db.organisations.length
  /-- and each of these has an active owner. -/
  owners : ∀ o < σ.db.organisations.length, 1 ≤ σ.db.activeOwners o
  given : ∀ s ∈ σ.db.sessions, ∃ n < σ.generated, s.val.sessionTokenHash = tokens n
  distinct : DistinctTokens σ.db
  relies : ∀ (j : Nat) (r : RunningCall), σ.calls[j]? = some r → Relies tokens σ.generated σ.db r.call r.phase

/-! ## What the steps of others leave as it is -/

/-- The members of an organisation are the same. -/
structure SameMembers (o : Nat) (db db' : AuthDatabase) : Prop where
  members : ∀ p, db'.memberships.get? (o, p) = db.memberships.get? (o, p)
  owners : db'.activeOwners o = db.activeOwners o

theorem sameMembers_insert (db : AuthDatabase) {o : Nat} {k : Nat × Nat} (h : k.1 ≠ o) (m : OrganisationMembership) :
    SameMembers o db { db with memberships := db.memberships.insert k m } where
  members p := by
    show (db.memberships.insert k m).get? (o, p) = _
    rw [Dict.get?_insert, if_neg]
    rintro rfl
    exact h rfl
  owners := activeOwners_insert_ne h m

theorem sameMembers_refl {o : Nat} (h : db'.memberships = db.memberships) : SameMembers o db db' where
  members p := by rw [h]
  owners := by rw [activeOwners, activeOwners, h]

/-- What a step does, seen by the other calls. -/
structure Spared (tokens : Nat → String) (generated : Nat) (db db' : AuthDatabase) (holds : List LockedRow) :
    Prop where
  organisations : db.organisations.length ≤ db'.organisations.length
  members : ∀ o, .organisation o ∈ holds → o < db.organisations.length → SameMembers o db db'
  sessions : ∀ k, .session k ∈ holds → db'.sessions[k]? = db.sessions[k]?
  bound : ∀ tokenHash o, BoundTo tokens generated db tokenHash o → BoundTo tokens (generated + 1) db' tokenHash o

theorem Acts.keep {actor : Actor} {target : Nat} (h : Acts db actor target)
    (hsame : SameMembers actor.organisationId db db') : Acts db' actor target := by
  obtain ⟨hother, m, hm, hrole⟩ := h
  exact ⟨hother, m, (hsame.members _).trans hm, hrole⟩

theorem Targets.keep {actor : Actor} {target : Nat} {role : String} {m : OrganisationMembership}
    (h : Targets db actor target role m) (hsame : SameMembers actor.organisationId db db') :
    Targets db' actor target role m := ⟨(hsame.members _).trans h.1, h.2⟩

theorem Spares.keep {actor : Actor} {role status : String} {m : OrganisationMembership}
    (h : Spares db actor role status m) (hsame : SameMembers actor.organisationId db db') :
    Spares db' actor role status m := by
  intro hdemotes
  rw [hsame.owners]
  exact h hdemotes

theorem Rewrites.keep {p : Nat × SessionRecord} (h : Rewrites db p) (hsame : db'.sessions[p.1]? = db.sessions[p.1]?) :
    Rewrites db' p := by
  obtain ⟨s, hs, hrest⟩ := h
  exact ⟨s, hsame.trans hs, hrest⟩

/-- **What a call relies on is kept by the steps of others.** -/
theorem Relies.keep {generated : Nat} {call : AuthCall} {phase : Phase}
    (hgrounded : ∀ k m, db.memberships.get? k = some m → k.1 < db.organisations.length)
    (h : Relies tokens generated db call phase) (hspared : Spared tokens generated db db' phase.holds) :
    Relies tokens (generated + 1) db' call phase := by
  have hsame : ∀ (actor : Actor) target, Acts db actor target → .organisation actor.organisationId ∈ phase.holds →
      SameMembers actor.organisationId db db' := by
    rintro actor target ⟨_, m, hm, _⟩ hheld
    exact hspared.members _ hheld (hgrounded _ m hm)
  cases call with
  | acceptInvitation tokenHash invitationTokenHash =>
      cases phase with
      | joined p n i row =>
          have hjoined := hspared.members i.organisationId List.mem_cons_self h.2
          exact ⟨(hjoined.members p).trans h.1, lt_of_lt_of_le h.2 hspared.organisations⟩
      | _ => trivial
  | revokeInvitation tokenHash n => trivial
  | mutateMembership tokenHash target role status =>
      cases phase with
      | entering o => exact hspared.bound _ _ h
      | entered o => exact hspared.bound _ _ h
      | acting actor => exact Acts.keep h (hsame actor target h List.mem_cons_self)
      | counting actor m =>
          have hmembers := hsame actor target h.1 List.mem_cons_self
          exact ⟨h.1.keep hmembers, h.2.keep hmembers⟩
      | changing actor m =>
          have hmembers := hsame actor target h.1 List.mem_cons_self
          exact ⟨h.1.keep hmembers, h.2.1.keep hmembers, h.2.2.keep hmembers⟩
      | changed actor m m' =>
          have hmembers := hsame actor target h.1 List.mem_cons_self
          exact ⟨h.1.keep hmembers, h.2.1.keep hmembers, h.2.2.1.keep hmembers, h.2.2.2⟩
      | ending actor m m' rows =>
          have hmembers := hsame actor target h.1 List.mem_cons_self
          refine ⟨h.1.keep hmembers, h.2.1.keep hmembers, h.2.2.1.keep hmembers, h.2.2.2.1, fun p hp => ?_⟩
          exact (h.2.2.2.2 p hp).keep
            (hspared.sessions p.1 (List.mem_cons_of_mem _ (List.mem_map.mpr ⟨p, hp, rfl⟩)))
      | _ => trivial

/-! ## Sessions -/

theorem BoundTo.mono {generated : Nat} {tokenHash : String} {o : Nat} (h : BoundTo tokens generated db tokenHash o) :
    BoundTo tokens (generated + 1) db tokenHash o := by
  obtain ⟨n, hn, htoken⟩ := h.given
  exact ⟨⟨n, Nat.lt_succ_of_lt hn, htoken⟩, h.bound⟩

theorem spared_refl (generated : Nat) (holds : List LockedRow) : Spared tokens generated db db holds where
  organisations := le_refl _
  members := fun _ _ _ => sameMembers_refl rfl
  sessions := fun _ _ => rfl
  bound := fun _ _ h => h.mono

/-- Each row of a list of sessions comes from one with the same token and the same organisation. -/
def SameTokens (sessions sessions' : List SessionRecord) : Prop :=
  ∀ (i : Nat) (s' : SessionRecord), sessions'[i]? = some s' → ∃ s : SessionRecord, sessions[i]? = some s ∧
    s'.val.sessionTokenHash = s.val.sessionTokenHash ∧ s'.val.active = s.val.active

theorem sameTokens_writeSessions {rows : List (Nat × SessionRecord)} (hrows : ∀ p ∈ rows, Rewrites db p) :
    SameTokens db.sessions (writeSessions rows db.sessions) := by
  have hfold : ∀ (rows : List (Nat × SessionRecord)) (sessions : List SessionRecord),
      (∀ p ∈ rows, Rewrites db p) → SameTokens db.sessions sessions →
      SameTokens db.sessions (rows.foldl (fun sessions p => sessions.set p.1 p.2) sessions) := by
    intro rows
    induction rows with
    | nil => exact fun sessions _ h => h
    | cons p rows ih =>
        intro sessions hrows h
        apply ih _ fun q hq => hrows q (List.mem_cons_of_mem p hq)
        intro i s' hs'
        by_cases hi : p.1 = i
        · subst hi
          have hlt := (List.getElem?_eq_some_iff.mp hs').1
          rw [List.length_set] at hlt
          rw [List.getElem?_set_self hlt] at hs'
          obtain rfl := Option.some.inj hs'
          exact hrows p List.mem_cons_self
        · rw [List.getElem?_set_ne hi] at hs'
          exact h i s' hs'
  exact hfold rows db.sessions hrows fun i s hs => ⟨s, hs, rfl, rfl⟩

/-- Rows that are not written stay. -/
theorem writeSessions_other {rows : List (Nat × SessionRecord)} {k : Nat} (hk : ∀ p ∈ rows, p.1 ≠ k)
    (sessions : List SessionRecord) : (writeSessions rows sessions)[k]? = sessions[k]? := by
  unfold writeSessions
  induction rows generalizing sessions with
  | nil => rfl
  | cons p rows ih =>
      rw [List.foldl_cons, ih fun q hq => hk q (List.mem_cons_of_mem p hq),
        List.getElem?_set_ne (hk p List.mem_cons_self)]

theorem SameTokens.distinct (db' : AuthDatabase) (h : SameTokens db.sessions db'.sessions) (hdistinct : DistinctTokens db) :
    DistinctTokens db' := by
  intro i j s t hs ht htoken
  obtain ⟨s₀, hs₀, hstoken, _⟩ := h i s hs
  obtain ⟨t₀, ht₀, httoken, _⟩ := h j t ht
  exact hdistinct i j s₀ t₀ hs₀ ht₀ (hstoken.symm.trans (htoken.trans httoken))

theorem SameTokens.given (db' : AuthDatabase) {P : String → Prop} (h : SameTokens db.sessions db'.sessions)
    (hgiven : ∀ s ∈ db.sessions, P s.val.sessionTokenHash) : ∀ s ∈ db'.sessions, P s.val.sessionTokenHash := by
  intro s hs
  obtain ⟨i, hi⟩ := List.mem_iff_getElem?.mp hs
  obtain ⟨s₀, hs₀, htoken, _⟩ := h i s hi
  rw [htoken]
  exact hgiven s₀ (List.mem_of_getElem? hs₀)

theorem SameTokens.bound (db' : AuthDatabase) {generated : Nat} {tokenHash : String} {o : Nat}
    (h : SameTokens db.sessions db'.sessions)
    (hbound : BoundTo tokens generated db tokenHash o) : BoundTo tokens (generated + 1) db' tokenHash o := by
  refine ⟨hbound.mono.given, fun s hs htoken => ?_⟩
  obtain ⟨i, hi⟩ := List.mem_iff_getElem?.mp hs
  obtain ⟨s₀, hs₀, hsame, hactive⟩ := h i s hi
  rw [hactive]
  exact hbound.bound s₀ (List.mem_of_getElem? hs₀) (hsame.symm.trans htoken)

/-- A call beside the ones with a mutex gives its session a fresh token, or leaves the organisation as it is. -/
theorem boundTo_effect (htokens : Function.Injective tokens) {generated : Nat} {op : AuthOperation} {now : Instant}
    (h : Effect .postgres op (tokens generated) now db db') {tokenHash : String} {o : Nat}
    (hbound : BoundTo tokens generated db tokenHash o) : BoundTo tokens (generated + 1) db' tokenHash o := by
  have hfresh : tokenHash ≠ tokens generated := by
    obtain ⟨n, hn, htoken⟩ := hbound.given
    rw [htoken]
    intro heq
    rw [htokens heq] at hn
    exact Nat.lt_irrefl _ hn
  refine ⟨hbound.mono.given, fun s hs htoken => ?_⟩
  obtain ⟨i, hi⟩ := List.mem_iff_getElem?.mp hs
  rcases h.row_of hi with ⟨s₀, hs₀, hstep⟩ | ⟨_, hcreated⟩
  · have hold := hbound.bound s₀ (List.mem_of_getElem? hs₀)
    cases hstep with
    | same h =>
        rw [h] at htoken ⊢
        exact hold htoken
    | touched window _ h =>
        rw [h] at htoken ⊢
        exact hold htoken
    | rebound organisationId m _ _ h =>
        rw [h] at htoken
        exact absurd htoken.symm hfresh
    | revoked _ h =>
        rw [h] at htoken ⊢
        exact hold htoken
  · exact absurd (htoken.symm.trans hcreated.token) hfresh

/-- The actor of a mutation is one in the organisation that was locked. -/
theorem currentActor_bound {generated : Nat} {tokenHash : String} {o : Nat} {now : Instant} {actor : Actor}
    (hbound : BoundTo tokens generated db tokenHash o) (h : currentActor tokenHash now db = .ok actor) :
    actor.organisationId = o ∧ ∃ m, db.memberships.get? (o, actor.principalId) = some m ∧
      m.roleCode = actor.roleCode := by
  unfold currentActor at h
  split at h
  · cases h
  · rename_i organisationId version hsession
    obtain ⟨⟨k, s⟩, hfound, hactive⟩ := Option.bind_eq_some_iff.mp hsession
    obtain ⟨hs, htoken⟩ := findSession_eq_some hfound
    have ho := hbound.bound s (List.mem_of_getElem? hs) htoken
    rw [hactive, Option.map_some] at ho
    obtain rfl := Option.some.inj ho
    split at h
    · cases h
    · split at h
      · cases h
      · rename_i m hm
        split at h
        · obtain rfl := Except.ok.inj h
          exact ⟨rfl, m, (activeMembership_eq_some.mp hm).1, rfl⟩
        · cases h

theorem boundTo_session {generated : Nat} (hgiven : ∀ s ∈ db.sessions, ∃ n < generated, s.val.sessionTokenHash = tokens n)
    (hdistinct : DistinctTokens db) {tokenHash : String} {k o : Nat} {s : SessionRecord} {version : ℕ+}
    (hfound : db.findSession tokenHash = some (k, s)) (hactive : s.val.active = some (o, version)) :
    BoundTo tokens generated db tokenHash o := by
  obtain ⟨hs, htoken⟩ := findSession_eq_some hfound
  constructor
  · obtain ⟨n, hn, hgiven⟩ := hgiven s (List.mem_of_getElem? hs)
    exact ⟨n, hn, htoken.symm.trans hgiven⟩
  · intro t ht htoken'
    obtain ⟨j, hj⟩ := List.mem_iff_getElem?.mp ht
    obtain rfl := hdistinct k j s t hs hj (htoken.trans htoken'.symm)
    obtain rfl := Option.some.inj (hs.symm.trans hj)
    rw [hactive]
    rfl

theorem rewrites_of_revokedRows {now : Instant} {which : UserSession → Bool} {rows : List (Nat × SessionRecord)}
    (h : revokedRows db now which = .ok rows) : ∀ p ∈ rows, Rewrites db p := by
  intro p hp
  obtain ⟨⟨s, k⟩, hmem, hrow⟩ := exists_of_mem_mapM h hp
  obtain ⟨row, hstore, hrow⟩ := bind_eq_ok.mp hrow
  obtain rfl := Except.ok.inj hrow
  have hs := List.mem_zipIdx_iff_getElem?.mp (List.mem_of_mem_filter hmem)
  refine ⟨s, hs, ?_⟩
  rw [storeSession_eq_ok.mp hstore]
  exact ⟨rfl, rfl⟩

/-! ## Steps -/

/-- What the next statement of a call makes of the database and of what the calls rely on. -/
structure OwnedAfter (tokens : Nat → String) (σ : ConcurrentState) (callId : Nat) (r' : RunningCall)
    (db : AuthDatabase) : Prop where
  grounded : ∀ k m, db.memberships.get? k = some m → k.1 < db.organisations.length
  owners : ∀ o < db.organisations.length, 1 ≤ db.activeOwners o
  given : ∀ s ∈ db.sessions, ∃ n < σ.generated, s.val.sessionTokenHash = tokens n
  distinct : DistinctTokens db
  self : Relies tokens (σ.generated + 1) db r'.call r'.phase
  others : ∀ (j : Nat) (q : RunningCall), j ≠ callId → σ.calls[j]? = some q →
    Spared tokens σ.generated σ.db db q.phase.holds

theorem Owned.goes {σ : ConcurrentState} (hσ : Owned tokens σ) {callId : Nat} {r : RunningCall} {phase : Phase}
    (h : Relies tokens σ.generated σ.db r.call phase) : OwnedAfter tokens σ callId { r with phase := phase } σ.db where
  grounded := hσ.grounded
  owners := hσ.owners
  given := hσ.given
  distinct := hσ.distinct
  self := h.keep hσ.grounded (spared_refl σ.generated phase.holds)
  others := fun _ q _ _ => spared_refl σ.generated q.phase.holds

/-- A membership of a locked organisation is written. -/
theorem Owned.writes {σ : ConcurrentState} (hσ : Owned tokens σ) {callId : Nat} {r r' : RunningCall}
    (hr : σ.calls[callId]? = some r) {k : Nat × Nat} {m : OrganisationMembership}
    (hlock : .organisation k.1 ∈ r.phase.holds) (hk : k.1 < σ.db.organisations.length)
    (howners : 1 ≤ { σ.db with memberships := σ.db.memberships.insert k m }.activeOwners k.1)
    {sessions : List SessionRecord} (hsessions : SameTokens σ.db.sessions sessions)
    (hothers : ∀ (j : Nat) (q : RunningCall), j ≠ callId → σ.calls[j]? = some q → ∀ i, .session i ∈ q.phase.holds →
      sessions[i]? = σ.db.sessions[i]?)
    (hphase : ∀ db, Relies tokens (σ.generated + 1) db r'.call r'.phase) (invitations : List InvitationRecord) :
    OwnedAfter tokens σ callId r' { σ.db with
      memberships := σ.db.memberships.insert k m
      sessions := sessions
      invitations := invitations } where
  grounded := by
    intro k' m' hk'
    rw [Dict.get?_insert] at hk'
    split at hk'
    · rename_i heq
      rw [heq]
      exact hk
    · exact hσ.grounded k' m' hk'
  owners := by
    intro o ho
    by_cases hne : k.1 = o
    · rw [← hne]
      exact howners
    · exact (hσ.owners o ho).trans (le_of_eq (activeOwners_insert_ne hne m).symm)
  given := SameTokens.given { σ.db with sessions := sessions }
    (P := fun hash => ∃ n < σ.generated, hash = tokens n) hsessions hσ.given
  distinct := SameTokens.distinct { σ.db with sessions := sessions } hsessions hσ.distinct
  self := hphase _
  others := by
    intro j q hj hq
    refine ⟨le_refl _, fun o ho _ => ?_, hothers j q hj hq, fun tokenHash o hbound => ?_⟩
    · have hne : k.1 ≠ o := by
        rintro rfl
        exact hσ.exclusive.ne hr hq hj hlock ho
      have hsame := sameMembers_insert σ.db hne m
      exact ⟨hsame.members, hsame.owners⟩
    · have hkept := SameTokens.bound { σ.db with sessions := sessions } hsessions hbound
      exact ⟨hkept.given, hkept.bound⟩

theorem relies_of_plain {generated : Nat} {call : AuthCall} {phase : Phase} (h : phase.plain = true) :
    Relies tokens generated db call phase := by
  cases phase with
  | called _ _ => cases call <;> trivial
  | invited _ _ _ => cases call <;> trivial
  | revoking _ => cases call <;> trivial
  | revocable _ => cases call <;> trivial
  | revoked _ row =>
      cases row with
      | none => cases call <;> trivial
      | some row => cases h
  | _ => cases h

theorem relies_ended {generated : Nat} (call : AuthCall) (answer : AuthAnswer) :
    Relies tokens generated db call (.committed answer) := by
  cases call <;> trivial

theorem relies_aborted {generated : Nat} (call : AuthCall) (e : AuthError) :
    Relies tokens generated db call (.aborted e) := by
  cases call <;> trivial

/-- **What one statement of a call makes of the owners.** -/
theorem Owned.next {σ : ConcurrentState} (hσ : Owned tokens σ) {callId : Nat} {r : RunningCall}
    (hr : σ.calls[callId]? = some r) :
    OwnedAfter tokens σ callId (σ.next L callId r).1 (σ.next L callId r).2 := by
  have hself := hσ.relies callId r hr
  have hadvance := statement_advance L σ.db (busy RunningCall.holds σ.calls callId) r.startedAt r.call r.phase
  unfold ConcurrentState.next
  revert hself hadvance
  generalize statement L σ.db (busy RunningCall.holds σ.calls callId) r.startedAt r.call r.phase = outcome
  obtain ⟨call, startedAt, phase⟩ := r
  intro hself hadvance
  cases hadvance with
  | waits => exact hσ.goes hself
  | fails => exact hσ.goes (relies_aborted call _)
  | reads hplain => exact hσ.goes (relies_of_plain hplain)
  | joining _ => exact hσ.goes trivial
  | answering _ _ _ => exact hσ.goes trivial
  | joined hnew horganisation =>
      apply hσ.goes
      refine ⟨hnew, ?_⟩
      obtain ⟨organisation, ho⟩ := Option.isSome_iff_exists.mp horganisation
      exact (List.getElem?_eq_some_iff.mp ho).1
  | @accepts _ _ p n i row =>
      apply hσ.writes hr (k := (i.organisationId, p)) List.mem_cons_self hself.2
      · exact (hσ.owners _ hself.2).trans (activeOwners_insert_new hself.1 _)
      · exact fun i s hs => ⟨s, hs, rfl, rfl⟩
      · exact fun _ _ _ _ _ _ => rfl
      · exact fun _ => trivial
  | revoked _ _ _ _ => exact hσ.goes trivial
  | revokesNothing => exact hσ.goes trivial
  | revokes =>
      refine ⟨hσ.grounded, hσ.owners, hσ.given, hσ.distinct, trivial, fun _ _ _ _ => ?_⟩
      exact ⟨le_refl _, fun _ _ _ => sameMembers_refl rfl, fun _ _ => rfl, fun _ _ h => ⟨h.mono.given, h.bound⟩⟩
  | entering hfound hactive => exact hσ.goes (boundTo_session hσ.given hσ.distinct hfound hactive)
  | entered _ => exact hσ.goes hself
  | acting hactor hother =>
      obtain ⟨rfl, m, hm, hrole⟩ := currentActor_bound hself hactor
      exact hσ.goes ⟨hother, m, hm, hrole⟩
  | counting hm hadmin => exact hσ.goes ⟨hself, hm, hadmin⟩
  | changing hm hadmin hkeeps =>
      apply hσ.goes
      exact ⟨hself, ⟨hm, hadmin⟩, fun hdemotes => absurd hdemotes (by rw [hkeeps]; exact Bool.false_ne_true)⟩
  | counted howners => exact hσ.goes ⟨hself.1, hself.2, fun _ => howners⟩
  | changed hm' => exact hσ.goes ⟨hself.1, hself.2.1, hself.2.2, hm'⟩
  | ending hrows _ =>
      exact hσ.goes ⟨hself.1, hself.2.1, hself.2.2.1, hself.2.2.2, rewrites_of_revokedRows hrows⟩
  | @mutates _ _ _ target actor m m' rows =>
      obtain ⟨_, ⟨hm, _⟩, hspares, hm', hrows⟩ := hself
      have hk := hσ.grounded _ m hm
      apply hσ.writes hr (k := (actor.organisationId, target)) List.mem_cons_self hk
      · exact activeOwners_mutated hm hm' hspares (hσ.owners _ hk)
      · exact sameTokens_writeSessions hrows
      · intro j q hj hq i hi
        apply writeSessions_other
        rintro p hp rfl
        exact hσ.exclusive.ne hr hq hj (List.mem_cons_of_mem _ (List.mem_map.mpr ⟨p, hp, rfl⟩)) hi
      · exact fun _ => trivial

theorem Owned.abort {σ : ConcurrentState} (hσ : Owned tokens σ) {callId : Nat} {r : RunningCall}
    (hr : σ.calls[callId]? = some r) : Relies tokens (σ.generated + 1) σ.db r.abort.call r.abort.phase := by
  unfold RunningCall.abort
  split
  · exact (hσ.relies callId r hr).keep hσ.grounded (spared_refl σ.generated r.phase.holds)
  · exact relies_aborted r.call _

/-- Members are of organisations that exist, each of which has an owner: also after a call beside those with a mutex. -/
theorem owners_beside (hgrounded : ∀ k m, db.memberships.get? k = some m → k.1 < db.organisations.length)
    (howners : ∀ o < db.organisations.length, 1 ≤ db.activeOwners o) (h : Beside db db') :
    (∀ k m, db'.memberships.get? k = some m → k.1 < db'.organisations.length) ∧
      ∀ o < db'.organisations.length, 1 ≤ db'.activeOwners o := by
  rcases h.memberships with ⟨horganisations, hmemberships⟩ | ⟨name, principalId, horganisations, hmemberships⟩
  · rw [horganisations, hmemberships]
    refine ⟨hgrounded, fun o ho => ?_⟩
    rw [activeOwners, hmemberships]
    exact howners o ho
  · rw [horganisations, hmemberships, List.length_append, List.length_singleton]
    constructor
    · intro k m hk
      rw [Dict.get?_insert] at hk
      split at hk
      · rename_i heq
        rw [heq]
        exact Nat.lt_succ_self _
      · exact Nat.lt_succ_of_lt (hgrounded k m hk)
    · intro o ho
      rw [activeOwners, hmemberships]
      have hinsert := activeOwners_insert db o (db.organisations.length, principalId) { roleCode := .owner }
      have hnew : db.memberships.get? (db.organisations.length, principalId) = none := by
        cases hk : db.memberships.get? (db.organisations.length, principalId) with
        | none => rfl
        | some m => exact absurd (hgrounded _ m hk) (Nat.lt_irrefl _)
      rw [hnew, Option.elim_none, Nat.add_zero] at hinsert
      show 1 ≤ { db with memberships := db.memberships.insert _ _ }.activeOwners o
      rw [hinsert]
      rcases Nat.lt_succ_iff_lt_or_eq.mp ho with ho | rfl
      · exact Nat.le_add_right_of_le (howners o ho)
      · rw [owns_iff.mpr ⟨rfl, rfl⟩]
        exact Nat.le_add_left 1 _

theorem spared_beside (htokens : Function.Injective tokens) {generated : Nat} {op : AuthOperation} {now : Instant}
    (heffect : Effect .postgres op (tokens generated) now db db') (hbeside : Beside db db') {holds : List LockedRow}
    (hsessions : ∀ k, .session k ∈ holds → db'.sessions[k]? = db.sessions[k]?) :
    Spared tokens generated db db' holds where
  organisations := by
    rcases hbeside.memberships with ⟨hsame, _⟩ | ⟨_, _, hmore, _⟩
    · rw [hsame]
    · rw [hmore, List.length_append]
      exact Nat.le_add_right _ _
  members := by
    intro o _ ho
    rcases hbeside.memberships with ⟨_, hsame⟩ | ⟨_, principalId, _, hmore⟩
    · exact sameMembers_refl hsame
    · have hinsert := sameMembers_insert db (k := (db.organisations.length, principalId)) (Nat.ne_of_gt ho)
        { roleCode := .owner }
      exact ⟨fun p => by rw [hmore]; exact hinsert.members p, by
        rw [activeOwners, hmore]
        exact hinsert.owners⟩
  sessions := hsessions
  bound := fun _ _ hbound => boundTo_effect htokens heffect hbound

/-- **The invariant of owners is kept by every step.** -/
theorem Owned.step (htokens : Function.Injective tokens) {σ : ConcurrentState} (hσ : Owned tokens σ)
    (action : Nat × ConcurrentAction) : Owned tokens (σ.step L tokens action) := by
  have hgiven : ∀ s ∈ σ.db.sessions, ∃ n < σ.generated + 1, s.val.sessionTokenHash = tokens n := fun s hs =>
    (hσ.given s hs).imp fun _ h => ⟨Nat.lt_succ_of_lt h.1, h.2⟩
  have hkeep : ∀ (j : Nat) (q : RunningCall), σ.calls[j]? = some q →
      Relies tokens (σ.generated + 1) σ.db q.call q.phase := fun j q hq =>
    (hσ.relies j q hq).keep hσ.grounded (spared_refl σ.generated q.phase.holds)
  have hexclusive := exclusive_step L tokens hσ.exclusive action
  obtain ⟨elapsed, action⟩ := action
  cases action with
  | start call =>
      refine ⟨hexclusive, hσ.grounded, hσ.owners, hgiven, hσ.distinct, forall_append hkeep ?_⟩
      cases call <;> trivial
  | next callId =>
      unfold ConcurrentState.step at hexclusive ⊢
      dsimp only at hexclusive ⊢
      cases hr : σ.calls[callId]? with
      | none =>
          rw [hr] at hexclusive
          exact ⟨hσ.exclusive, hσ.grounded, hσ.owners, hgiven, hσ.distinct, hkeep⟩
      | some r =>
          rw [hr] at hexclusive
          have hafter := hσ.next (L := L) hr
          refine ⟨hexclusive, hafter.grounded, hafter.owners, fun s hs => ?_, hafter.distinct, ?_⟩
          · exact (hafter.given s hs).imp fun _ h => ⟨Nat.lt_succ_of_lt h.1, h.2⟩
          · exact forall_set hσ.relies hafter.self fun j q hj hq hrelies =>
              hrelies.keep hσ.grounded (hafter.others j q hj hq)
  | abort callId =>
      unfold ConcurrentState.step at hexclusive ⊢
      dsimp only at hexclusive ⊢
      cases hr : σ.calls[callId]? with
      | none => exact ⟨hσ.exclusive, hσ.grounded, hσ.owners, hgiven, hσ.distinct, hkeep⟩
      | some r =>
          rw [hr] at hexclusive
          exact ⟨hexclusive, hσ.grounded, hσ.owners, hgiven, hσ.distinct,
            forall_set hkeep (hσ.abort hr) fun _ _ _ _ h => h⟩
  | other op =>
      obtain ⟨heffect, hbeside, hunblocked⟩ := beside_effect L tokens σ (σ.clock + elapsed) op
      obtain ⟨hgrounded, howners⟩ := owners_beside hσ.grounded hσ.owners hbeside
      refine ⟨hexclusive, hgrounded, howners, fun s hs => ?_, ?_, fun j q hq => ?_⟩
      · rcases heffect.token_of hs with hfresh | ⟨s₀, hs₀, hsame⟩
        · exact ⟨σ.generated, Nat.lt_succ_self _, hfresh⟩
        · rw [hsame]
          exact hgiven s₀ hs₀
      · apply heffect.distinct _ hσ.distinct
        intro s hs heq
        obtain ⟨n, hn, htoken⟩ := hσ.given s hs
        rw [htokens (htoken.symm.trans heq)] at hn
        exact Nat.lt_irrefl _ hn
      · exact (hσ.relies j q hq).keep hσ.grounded (spared_beside htokens heffect hbeside fun k hk =>
          hunblocked q (List.mem_of_getElem? hq) k hk)

theorem owned_initial (tokens : Nat → String) (principals : List Principal) (clock : Instant) :
    Owned tokens ⟨AuthState.initial principals clock, []⟩ where
  exclusive := exclusive_nil
  grounded := fun _ _ hk => nomatch hk
  owners := fun _ ho => absurd ho (Nat.not_lt_zero _)
  given := fun _ hs => absurd hs List.not_mem_nil
  distinct := fun _ _ _ _ hs => absurd (List.mem_of_getElem? hs) List.not_mem_nil
  relies := fun _ _ hr => absurd (List.mem_of_getElem? hr) List.not_mem_nil

/-! ## The claims of an organisation -/

/-- The caller of a call, once it is read. -/
def Phase.callerId : Phase → Option Nat
  | .called p _ | .invited p _ _ | .joining p _ _ | .answering p _ _ _ | .joined p _ _ _ => some p
  | .revoking actor | .acting actor | .counting actor _ | .changing actor _ | .changed actor _ _
  | .ending actor _ _ _ => some actor.principalId
  | _ => none

/-- An active owner of an organisation. -/
def HasOwner (db : AuthDatabase) (o : Nat) : Prop :=
  ∃ p m, db.memberships.get? (o, p) = some m ∧ m.roleCode = .owner ∧ m.status = .active

/-- A step of a call that changes a membership: it is not an existing one of its caller, and if the caller is an
    administrator of the organisation, neither before nor after it is one of an owner. -/
structure ChangesRightly (db db' : AuthDatabase) (caller : Nat) (k : Nat × Nat) : Prop where
  other : k.2 = caller → db.memberships.get? k = none
  admin : ∀ m, db.memberships.get? (k.1, caller) = some m → m.roleCode = .admin →
    (∀ before, db.memberships.get? k = some before → before.roleCode ≠ .owner) ∧
      ∀ after, db'.memberships.get? k = some after → after.roleCode ≠ .owner

theorem hasOwner_of_activeOwners {o : Nat} (h : 1 ≤ db.activeOwners o) : HasOwner db o := by
  obtain ⟨⟨⟨o', p⟩, m⟩, hmem, howns⟩ := List.countP_pos_iff.mp h
  rw [Bool.and_eq_true, Bool.and_eq_true, decide_eq_true_eq, decide_eq_true_eq, decide_eq_true_eq] at howns
  obtain ⟨⟨rfl, howner⟩, hactive⟩ := howns
  exact ⟨p, m, Dict.get?_of_mem hmem, howner, hactive⟩

/-- What a call changes when it commits. -/
theorem Owned.changesRightly {σ : ConcurrentState} (hσ : Owned tokens σ) {callId : Nat} {r : RunningCall}
    (hr : σ.calls[callId]? = some r) {k : Nat × Nat}
    (hk : (σ.next L callId r).2.memberships.get? k ≠ σ.db.memberships.get? k) :
    ∃ caller, r.phase.callerId = some caller ∧ ChangesRightly σ.db (σ.next L callId r).2 caller k := by
  have hself := hσ.relies callId r hr
  have hadvance := statement_advance L σ.db (busy RunningCall.holds σ.calls callId) r.startedAt r.call r.phase
  unfold ConcurrentState.next at hk ⊢
  revert hk hself hadvance
  generalize statement L σ.db (busy RunningCall.holds σ.calls callId) r.startedAt r.call r.phase = outcome
  obtain ⟨call, startedAt, phase⟩ := r
  intro hk hself hadvance
  have hinserted : ∀ (k' : Nat × Nat) (m : OrganisationMembership),
      (σ.db.memberships.insert k' m).get? k ≠ σ.db.memberships.get? k → k = k' := by
    intro k' m hne
    rw [Dict.get?_insert] at hne
    by_contra hother
    rw [if_neg hother] at hne
    exact hne rfl
  cases hadvance with
  | @accepts _ _ p n i row =>
      obtain rfl := hinserted _ _ hk
      refine ⟨p, rfl, fun _ => hself.1, fun m hm => ?_⟩
      rw [hself.1] at hm
      cases hm
  | @mutates _ role status target actor m m' rows =>
      obtain rfl := hinserted _ _ hk
      obtain ⟨⟨hother, a, ha, harole⟩, ⟨hm, hadmin⟩, _, hm', _⟩ := hself
      refine ⟨actor.principalId, rfl, fun hcaller => absurd hcaller.symm hother, fun a' ha' ha'role => ?_⟩
      obtain rfl := Option.some.inj (ha.symm.trans ha')
      obtain ⟨hbefore, hafter⟩ := hadmin (harole.symm.trans ha'role)
      constructor
      · intro before hbefore'
        obtain rfl := Option.some.inj (hm.symm.trans hbefore')
        exact hbefore
      · intro after hafter'
        rw [RunningCall.after] at hafter'
        rw [Dict.get?_insert, if_pos rfl] at hafter'
        obtain rfl := Option.some.inj hafter'
        intro howner
        have hcode := Role.code_of_ofCode (mutated_eq_ok hm').1
        rw [howner] at hcode
        exact hafter hcode.symm
  | _ => exact absurd rfl hk

/-- **Every organisation has an active owner in every state that any interleaving leads to; no call changes the
    membership of its caller, and none of an administrator changes or makes an owner.** -/
theorem owners_kept (L : Letters) (tokens : Nat → String) (htokens : Function.Injective tokens)
    (principals : List Principal) (clock : Instant) (σ : ConcurrentState)
    (hσ : Reachable (ConcurrentState.step L tokens) ⟨AuthState.initial principals clock, []⟩ σ) :
    (∀ o < σ.db.organisations.length, HasOwner σ.db o) ∧
      ∀ elapsed callId r k, σ.calls[callId]? = some r →
        (σ.step L tokens (elapsed, .next callId)).db.memberships.get? k ≠ σ.db.memberships.get? k →
        ∃ caller, r.phase.callerId = some caller ∧
          ChangesRightly σ.db (σ.step L tokens (elapsed, .next callId)).db caller k := by
  have howned : Owned tokens σ :=
    hσ.invariant _ (fun σ action h => h.step htokens action) (owned_initial tokens principals clock)
  refine ⟨fun o ho => hasOwner_of_activeOwners (howned.owners o ho), fun elapsed callId r k hr hk => ?_⟩
  have hstep : (σ.step L tokens (elapsed, .next callId)).db = (σ.next L callId r).2 := by
    unfold ConcurrentState.step
    dsimp only
    rw [hr]
  rw [hstep] at hk ⊢
  exact howned.changesRightly hr hk

/-! ## Two owners demote each other -/

/-- Two owners, each with a session in the organisation. -/
def twoOwners : List (Nat × ConcurrentAction) :=
  [(0, .other (.createSession 0 none)), (0, .other (.createSession 1 none)),
    (0, .other (.createOrganisation (unaryToken 0) "org")), (0, .other (.switchOrganisation (unaryToken 0) 0)),
    (0, .other (.createInvitation (unaryToken 3) "m" "owner")),
    (0, .start (.acceptInvitation (unaryToken 1) (unaryToken 4)))] ++
    List.replicate 6 (0, .next 0) ++ [(0, .other (.switchOrganisation (unaryToken 1) 0))]

/-- Each begins to demote the other before either has locked the organisation. -/
def demoteEachOther : List (Nat × ConcurrentAction) :=
  twoOwners ++ [(0, .start (.mutateMembership (unaryToken 3) 1 "operator" "active")),
    (0, .start (.mutateMembership (unaryToken 12) 0 "operator" "active")), (0, .next 1), (0, .next 2)] ++
    List.replicate 8 (0, .next 1) ++ List.replicate 8 (0, .next 2)

theorem owners_kept_demoteEachOther :
    HasOwner (run (ConcurrentState.step plainLetters unaryToken)
      ⟨AuthState.initial [{ email := "o" }, { email := "m" }] 0, []⟩ demoteEachOther).db 0 :=
  (owners_kept plainLetters unaryToken unaryToken_injective [{ email := "o" }, { email := "m" }] 0 _
    ⟨demoteEachOther, rfl⟩).1 0 (by decide +kernel)

end Untangle
