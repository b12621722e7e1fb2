import Untangle.Correctness.Auth.Acceptance

/-!
# `Correctness.Auth.Shrinking` — a session only loses authority

Tokens are fresh, so a session is bound to an organisation under one token; versions of memberships only grow, so a
session that is not stale is bound to a membership as it was then; and what is revoked or expired is never touched
again (`Later`). `lookup_session` also counts a session of an inactive principal as revoked, which no other call looks
at on SQLite: there the results hold of runs that create sessions for active principals only (`authority_shrinks`).
-/

namespace Untangle

open Lib AuthDatabase

variable {L : Letters} {tokens : Nat → String} {backend : Backend} {db db' : AuthDatabase} {fresh : String}
  {now : Instant} {op : AuthOperation}

/-! ## The effects on sessions, memberships and principals -/

namespace AuthDatabase

theorem rowsStep_refl : RowsStep db fresh now db.sessions := by
  refine ⟨List.forall₂_same.mpr fun s _ => .same rfl, ?_⟩
  intro i s s' hs hs' hne
  obtain rfl := Option.some.inj (hs.symm.trans hs')
  exact absurd rfl hne

theorem Effect.rows (h : Effect backend op fresh now db db') :
    (∃ row : SessionRecord, Created backend op db fresh now row.val ∧ db'.sessions = db.sessions ++ [row]) ∨
      RowsStep db fresh now db'.sessions := by
  cases h with
  | created row hrow => exact Or.inl ⟨row, hrow, rfl⟩
  | sessions rows hrows => exact Or.inr hrows
  | mutated _ _ _ _ _ _ rows hrows => exact Or.inr hrows
  | nothing => exact Or.inr rowsStep_refl
  | organisation _ _ _ => exact Or.inr rowsStep_refl
  | invited _ _ _ => exact Or.inr rowsStep_refl
  | answered _ _ _ _ _ => exact Or.inr rowsStep_refl
  | accepted _ _ _ _ _ _ _ _ _ => exact Or.inr rowsStep_refl

/-- The row that a session has after a call. -/
theorem Effect.row (h : Effect backend op fresh now db db') {i : Nat} {s : SessionRecord}
    (hs : db.sessions[i]? = some s) : ∃ s', db'.sessions[i]? = some s' ∧ RowStep db fresh now s s' := by
  obtain ⟨hi, rfl⟩ := List.getElem?_eq_some_iff.mp hs
  rcases h.rows with ⟨row, _, hrows⟩ | hrows
  · rw [hrows, List.getElem?_append_left hi]
    exact ⟨_, List.getElem?_eq_getElem hi, .same rfl⟩
  · obtain ⟨hlength, hstep⟩ := List.forall₂_iff_get.mp hrows.step
    exact ⟨_, List.getElem?_eq_getElem (hlength ▸ hi), hstep i hi (hlength ▸ hi)⟩

/-- Where a row of the database after a call comes from. -/
theorem Effect.row_of (h : Effect backend op fresh now db db') {i : Nat} {s' : SessionRecord}
    (hs' : db'.sessions[i]? = some s') :
    (∃ s, db.sessions[i]? = some s ∧ RowStep db fresh now s s') ∨
      (i = db.sessions.length ∧ Created backend op db fresh now s'.val) := by
  cases hs : db.sessions[i]? with
  | some s =>
      obtain ⟨t, ht, hstep⟩ := h.row hs
      obtain rfl := Option.some.inj (hs'.symm.trans ht)
      exact Or.inl ⟨s, rfl, hstep⟩
  | none =>
      apply Or.inr
      have hlength := List.getElem?_eq_none_iff.mp hs
      rcases h.rows with ⟨row, hrow, hrows⟩ | hrows
      · rw [hrows, List.getElem?_append_right hlength] at hs'
        have hi : i - db.sessions.length = 0 := by
          have := (List.getElem?_eq_some_iff.mp hs').1
          rw [List.length_singleton] at this
          omega
        rw [hi] at hs'
        obtain rfl := Option.some.inj hs'
        exact ⟨by omega, hrow⟩
      · have hi := (List.getElem?_eq_some_iff.mp hs').1
        rw [← (List.forall₂_iff_get.mp hrows.step).1] at hi
        omega

/-- The token of a row after a call: the one before, or the fresh one. -/
theorem token_of_rowStep {s s' : SessionRecord} (h : RowStep db fresh now s s') :
    s'.val.sessionTokenHash = s.val.sessionTokenHash ∨ s'.val.sessionTokenHash = fresh := by
  cases h with
  | same h => rw [h]; exact Or.inl rfl
  | touched window _ h => rw [h]; exact Or.inl rfl
  | rebound organisationId m _ _ h => rw [h]; exact Or.inr rfl
  | revoked _ h => rw [h]; exact Or.inl rfl

/-- No two sessions have the same token. -/
def DistinctTokens (db : AuthDatabase) : Prop :=
  ∀ (i j : Nat) (s t : SessionRecord), db.sessions[i]? = some s → db.sessions[j]? = some t →
    s.val.sessionTokenHash = t.val.sessionTokenHash → i = j

theorem Effect.distinct (h : Effect backend op fresh now db db')
    (hfresh : ∀ s ∈ db.sessions, s.val.sessionTokenHash ≠ fresh) (hdistinct : DistinctTokens db) :
    DistinctTokens db' := by
  intro i j s t hs ht htoken
  rcases h.rows with ⟨row, hrow, hrows⟩ | hrows
  · -- The new row is the only one with the fresh token.
    rw [hrows] at hs ht
    rcases lt_or_ge i db.sessions.length with hi | hi <;> rcases lt_or_ge j db.sessions.length with hj | hj
    · rw [List.getElem?_append_left hi] at hs
      rw [List.getElem?_append_left hj] at ht
      exact hdistinct i j s t hs ht htoken
    · rw [List.getElem?_append_left hi] at hs
      rw [List.getElem?_append_right hj] at ht
      obtain rfl := List.mem_singleton.mp (List.mem_of_getElem? ht)
      exact absurd (htoken.trans hrow.token) (hfresh _ (List.mem_of_getElem? hs))
    · rw [List.getElem?_append_right hi] at hs
      rw [List.getElem?_append_left hj] at ht
      obtain rfl := List.mem_singleton.mp (List.mem_of_getElem? hs)
      exact absurd (htoken.symm.trans hrow.token) (hfresh _ (List.mem_of_getElem? ht))
    · have hlength := (List.getElem?_eq_some_iff.mp hs).1
      have hlength' := (List.getElem?_eq_some_iff.mp ht).1
      rw [List.length_append, List.length_singleton] at hlength hlength'
      omega
  · -- A session that is given the fresh token is the only one that changes.
    have hold : ∀ (i : Nat) (s : SessionRecord), db'.sessions[i]? = some s →
        ∃ s₀ : SessionRecord, db.sessions[i]? = some s₀ ∧ (s.val.sessionTokenHash = s₀.val.sessionTokenHash ∨
          s.val.sessionTokenHash = fresh ∧ ∀ j, i ≠ j → db'.sessions[j]? = db.sessions[j]?) := by
      intro i s hs
      rcases h.row_of hs with ⟨s₀, hs₀, hstep⟩ | ⟨hi, _⟩
      · refine ⟨s₀, hs₀, ?_⟩
        rcases token_of_rowStep hstep with hsame | hrebound
        · exact Or.inl hsame
        · have hne : s.val.sessionTokenHash ≠ s₀.val.sessionTokenHash := by
            rw [hrebound]
            exact (hfresh _ (List.mem_of_getElem? hs₀)).symm
          refine Or.inr ⟨hrebound, fun j hij => ?_⟩
          rw [(hrows.rebinds i s₀ s hs₀ hs hne).2, List.getElem?_set_ne hij]
      · have hlt := (List.getElem?_eq_some_iff.mp hs).1
        rw [← (List.forall₂_iff_get.mp hrows.step).1] at hlt
        omega
    by_contra hij
    obtain ⟨s₀, hs₀, hs₁⟩ := hold i s hs
    obtain ⟨t₀, ht₀, ht₁⟩ := hold j t ht
    rcases hs₁ with hs₁ | ⟨hrebound, hothers⟩
    · rcases ht₁ with ht₁ | ⟨hrebound, hothers⟩
      · exact hij (hdistinct i j s₀ t₀ hs₀ ht₀ (hs₁.symm.trans (htoken.trans ht₁)))
      · exact hfresh _ (List.mem_of_getElem? hs₀) (hs₁.symm.trans (htoken.trans hrebound))
    · rw [hothers j hij, ht₀] at ht
      obtain rfl := Option.some.inj ht
      exact hfresh _ (List.mem_of_getElem? ht₀) (htoken.symm.trans hrebound)

/-- Tokens that were given stay so: a token of a row is one of before, or the fresh one. -/
theorem Effect.token_of (h : Effect backend op fresh now db db') {s' : SessionRecord} (hs' : s' ∈ db'.sessions) :
    s'.val.sessionTokenHash = fresh ∨
      ∃ s ∈ db.sessions, s'.val.sessionTokenHash = s.val.sessionTokenHash := by
  obtain ⟨i, hs'⟩ := List.mem_iff_getElem?.mp hs'
  rcases h.row_of hs' with ⟨s, hs, hstep⟩ | ⟨_, hcreated⟩
  · rcases token_of_rowStep hstep with hsame | hfresh
    · exact Or.inr ⟨s, List.mem_of_getElem? hs, hsame⟩
    · exact Or.inl hfresh
  · exact Or.inl hcreated.token

theorem Effect.principals (h : Effect backend op fresh now db db') : db'.principals = db.principals := by
  cases h <;> rfl

/-- A membership stays, or its version grows. -/
def Grows (ms ms' : Dict (Nat × Nat) OrganisationMembership) : Prop :=
  ∀ k m, ms.get? k = some m → ∃ m', ms'.get? k = some m' ∧ (m' = m ∨ m.authVersion < m'.authVersion)

theorem Grows.refl (ms : Dict (Nat × Nat) OrganisationMembership) : Grows ms ms :=
  fun _ m hm => ⟨m, hm, Or.inl rfl⟩

theorem Grows.trans {ms ms' ms'' : Dict (Nat × Nat) OrganisationMembership} (h : Grows ms ms') (h' : Grows ms' ms'') :
    Grows ms ms'' := by
  intro k m hm
  obtain ⟨m', hm', hle⟩ := h k m hm
  obtain ⟨m'', hm'', hle'⟩ := h' k m' hm'
  refine ⟨m'', hm'', ?_⟩
  rcases hle with rfl | hlt
  · exact hle'
  · rcases hle' with rfl | hlt'
    · exact Or.inr hlt
    · exact Or.inr (hlt.trans hlt')

theorem grows_insert {ms : Dict (Nat × Nat) OrganisationMembership} {k : Nat × Nat} {m' : OrganisationMembership}
    (h : ∀ m, ms.get? k = some m → m.authVersion < m'.authVersion) : Grows ms (ms.insert k m') := by
  intro k' m hm
  rw [Dict.get?_insert]
  split
  · rename_i heq
    rw [heq] at hm
    exact ⟨m', rfl, Or.inr (h m hm)⟩
  · exact ⟨m, hm, Or.inl rfl⟩

theorem Effect.grows (h : Effect backend op fresh now db db')
    (hfresh : ∀ principalId, db.memberships.get? (db.organisations.length, principalId) = none) :
    Grows db.memberships db'.memberships := by
  cases h with
  | organisation name principalId _ =>
      apply grows_insert
      intro m hm
      cases (hfresh principalId).symm.trans hm
  | mutated organisationId principalId m m' hm hversion _ _ =>
      apply grows_insert
      intro m₁ hm₁
      obtain rfl := Option.some.inj (hm.symm.trans hm₁)
      rw [hversion]
      exact PNat.lt_add_right _ _
  | accepted n i i' principalId _ _ hnew _ _ =>
      apply grows_insert
      intro m hm
      cases hnew.symm.trans hm
  | nothing => exact Grows.refl _
  | created _ _ => exact Grows.refl _
  | sessions _ _ => exact Grows.refl _
  | invited _ _ _ => exact Grows.refl _
  | answered _ _ _ _ _ => exact Grows.refl _

end AuthDatabase

/-! ## Later states -/

/-- What stays of a session, seen at a time. -/
structure Ages (clock : Instant) (s s' : UserSession) : Prop where
  principalId : s'.principalId = s.principalId
  absoluteExpiresAt : s'.absoluteExpiresAt = s.absoluteExpiresAt
  revoked : s.revokedAt.isSome = true → s' = s
  expired : s.absoluteExpiresAt ≤ clock ∨ s.idleExpiresAt ≤ clock →
    s'.idleExpiresAt = s.idleExpiresAt ∧ s'.sessionTokenHash = s.sessionTokenHash
  bound : s'.sessionTokenHash = s.sessionTokenHash → s'.active = s.active

theorem Ages.refl (clock : Instant) (s : UserSession) : Ages clock s s :=
  ⟨rfl, rfl, fun _ => rfl, fun _ => ⟨rfl, rfl⟩, fun _ => rfl⟩

theorem Ages.trans {clock clock' : Instant} {s s' s'' : UserSession} (hclock : clock ≤ clock') (h : Ages clock s s')
    (h' : Ages clock' s' s'')
    (hback : s''.sessionTokenHash = s.sessionTokenHash → s'.sessionTokenHash = s.sessionTokenHash) :
    Ages clock s s'' where
  principalId := h'.principalId.trans h.principalId
  absoluteExpiresAt := h'.absoluteExpiresAt.trans h.absoluteExpiresAt
  revoked := by
    intro hrevoked
    obtain rfl := h.revoked hrevoked
    exact h'.revoked hrevoked
  expired := by
    intro hexpired
    obtain ⟨hidle, htoken⟩ := h.expired hexpired
    have hexpired' : s'.absoluteExpiresAt ≤ clock' ∨ s'.idleExpiresAt ≤ clock' := by
      rw [h.absoluteExpiresAt, hidle]
      exact hexpired.imp (fun h => h.trans hclock) fun h => h.trans hclock
    obtain ⟨hidle', htoken'⟩ := h'.expired hexpired'
    exact ⟨hidle'.trans hidle, htoken'.trans htoken⟩
  bound := by
    intro htoken
    have hsame := hback htoken
    exact (h'.bound (htoken.trans hsame.symm)).trans (h.bound hsame)

/-- One call leaves a session older. -/
theorem ages_of_rowStep {clock : Instant} {s s' : SessionRecord} (h : RowStep db fresh now s s') (hclock : clock ≤ now)
    (hfresh : s.val.sessionTokenHash ≠ fresh) : Ages clock s.val s'.val := by
  have hnotLive : s.val.live now = true →
      ¬ (s.val.absoluteExpiresAt ≤ clock ∨ s.val.idleExpiresAt ≤ clock) := by
    intro hlive
    obtain ⟨_, habsolute, hidle⟩ := UserSession.live_iff.mp hlive
    rw [not_or, not_le, not_le]
    exact ⟨lt_of_le_of_lt hclock habsolute, lt_of_le_of_lt hclock hidle⟩
  cases h with
  | same h =>
      rw [h]
      exact Ages.refl clock s.val
  | touched window hlive h =>
      have hunrevoked := (UserSession.live_iff.mp hlive).1
      rw [h]
      refine ⟨rfl, rfl, fun hrevoked => ?_, fun hexpired => absurd hexpired (hnotLive hlive), fun _ => rfl⟩
      rw [hunrevoked] at hrevoked
      cases hrevoked
  | rebound organisationId m hlive _ h =>
      have hunrevoked := (UserSession.live_iff.mp hlive).1
      rw [h]
      refine ⟨rfl, rfl, fun hrevoked => ?_, fun hexpired => absurd hexpired (hnotLive hlive),
        fun hsame => absurd hsame.symm hfresh⟩
      rw [hunrevoked] at hrevoked
      cases hrevoked
  | revoked hunrevoked h =>
      rw [h]
      refine ⟨rfl, rfl, fun hrevoked => ?_, fun _ => ⟨rfl, rfl⟩, fun _ => rfl⟩
      rw [hunrevoked] at hrevoked
      cases hrevoked

/-- What a later state keeps of an earlier one. -/
structure Later (tokens : Nat → String) (σ σ' : AuthState) : Prop where
  clock : σ.clock ≤ σ'.clock
  generated : σ.generated ≤ σ'.generated
  principals : σ'.db.principals = σ.db.principals
  grows : Grows σ.db.memberships σ'.db.memberships
  sessions : ∀ (i : Nat) (s : SessionRecord), σ.db.sessions[i]? = some s →
    ∃ s' : SessionRecord, σ'.db.sessions[i]? = some s' ∧ Ages σ.clock s.val s'.val
  /-- A token that was given out already is where it was. -/
  given : ∀ (i : Nat) (s' : SessionRecord) (n : Nat), σ'.db.sessions[i]? = some s' → n < σ.generated →
    s'.val.sessionTokenHash = tokens n →
    ∃ s : SessionRecord, σ.db.sessions[i]? = some s ∧ s.val.sessionTokenHash = tokens n

/-- What every state keeps to itself. -/
structure Sound (tokens : Nat → String) (σ : AuthState) : Prop where
  grounded : σ.db.Grounded
  /-- Tokens come from the source, -/
  given : ∀ s ∈ σ.db.sessions, ∃ n < σ.generated, s.val.sessionTokenHash = tokens n
  /-- and no two sessions have the same. -/
  distinct : ∀ (i j : Nat) (s t : SessionRecord), σ.db.sessions[i]? = some s → σ.db.sessions[j]? = some t →
    s.val.sessionTokenHash = t.val.sessionTokenHash → i = j
  /-- A session is bound to a version that its membership has had. -/
  bound : ∀ s ∈ σ.db.sessions, ∀ organisationId authVersion, s.val.active = some (organisationId, authVersion) →
    ∃ m, σ.db.memberships.get? (organisationId, s.val.principalId) = some m ∧ authVersion ≤ m.authVersion

theorem Later.refl (tokens : Nat → String) (σ : AuthState) : Later tokens σ σ where
  clock := le_refl _
  generated := le_refl _
  principals := rfl
  grows := Grows.refl _
  sessions := fun _ s hs => ⟨s, hs, Ages.refl _ _⟩
  given := fun _ s' _ hs' _ htoken => ⟨s', hs', htoken⟩

section Step

variable {σ σ' : AuthState} {call : Nat × AuthOperation}

/-- A fresh token is none that a session has. -/
theorem Sound.fresh_ne (hσ : Sound tokens σ) (htokens : Function.Injective tokens) {s : SessionRecord}
    (hs : s ∈ σ.db.sessions) : s.val.sessionTokenHash ≠ tokens σ.generated := by
  obtain ⟨n, hn, htoken⟩ := hσ.given s hs
  rw [htoken]
  intro heq
  rw [htokens heq] at hn
  exact Nat.lt_irrefl _ hn

theorem Sound.memberships_new (hσ : Sound tokens σ) (principalId : Nat) :
    σ.db.memberships.get? (σ.db.organisations.length, principalId) = none := by
  cases h : σ.db.memberships.get? (σ.db.organisations.length, principalId) with
  | none => rfl
  | some m =>
      have hexists := hσ.grounded.memberships _ _ h
      rw [List.getElem?_eq_none (Nat.le_refl _)] at hexists
      cases hexists

theorem Sound.grows_step (hσ : Sound tokens σ) (L : Letters) (backend : Backend) (call : Nat × AuthOperation) :
    Grows σ.db.memberships (σ.step L tokens backend call).db.memberships :=
  (σ.step_effect L tokens backend call).grows hσ.memberships_new

theorem Later.step (hσ : Sound tokens σ) (hσ' : Sound tokens σ') (htokens : Function.Injective tokens) (h : Later tokens σ σ') :
    Later tokens σ (σ'.step L tokens backend call) where
  clock := by
    exact h.clock.trans (Int.le_add_of_nonneg_right (Int.natCast_nonneg _))
  generated := Nat.le_succ_of_le h.generated
  principals := (σ'.step_effect L tokens backend call).principals.trans h.principals
  grows := h.grows.trans (hσ'.grows_step L backend call)
  sessions := by
    intro i s hs
    obtain ⟨s', hs', hages⟩ := h.sessions i s hs
    obtain ⟨s'', hs'', hstep⟩ := (σ'.step_effect L tokens backend call).row hs'
    have hclock : σ'.clock ≤ σ'.clock + (call.1 : ℤ) := Int.le_add_of_nonneg_right (Int.natCast_nonneg _)
    have hages' := ages_of_rowStep hstep hclock (hσ'.fresh_ne htokens (List.mem_of_getElem? hs'))
    refine ⟨s'', hs'', hages.trans h.clock hages' ?_⟩
    intro htoken
    rcases token_of_rowStep hstep with hsame | hfresh
    · exact hsame.symm.trans htoken
    · -- The fresh token is none that was given before.
      obtain ⟨n, hn, hgiven⟩ := hσ.given s (List.mem_of_getElem? hs)
      have heq := htokens (hgiven.symm.trans (htoken.symm.trans hfresh))
      have hle := h.generated
      omega
  given := by
    intro i s'' n hs'' hn htoken
    rcases (σ'.step_effect L tokens backend call).row_of hs'' with ⟨s', hs', hstep⟩ | ⟨_, hcreated⟩
    · rcases token_of_rowStep hstep with hsame | hfresh
      · exact h.given i s' n hs' hn (hsame.symm.trans htoken)
      · have heq := htokens (htoken.symm.trans hfresh)
        have := h.generated
        omega
    · have heq := htokens (htoken.symm.trans hcreated.token)
      have := h.generated
      omega

theorem Sound.step (hσ : Sound tokens σ) (htokens : Function.Injective tokens) (L : Letters) (backend : Backend)
    (call : Nat × AuthOperation) :
    Sound tokens (σ.step L tokens backend call) where
  grounded := hσ.grounded.effect (σ.step_effect L tokens backend call)
  given := by
    intro s hs
    have hlt : σ.generated < (σ.step L tokens backend call).generated := Nat.lt_succ_self _
    rcases (σ.step_effect L tokens backend call).token_of hs with hfresh | ⟨s₀, hs₀, hsame⟩
    · exact ⟨_, hlt, hfresh⟩
    · obtain ⟨n, hn, htoken⟩ := hσ.given s₀ hs₀
      exact ⟨n, hn.trans hlt, hsame.trans htoken⟩
  distinct := (σ.step_effect L tokens backend call).distinct (fun _ hs => hσ.fresh_ne htokens hs) hσ.distinct
  bound := by
    intro s hs organisationId authVersion hactive
    have hgrows := hσ.grows_step L backend call
    -- A membership that had the version has it still, or a later one.
    have hlater : ∀ principalId m, σ.db.memberships.get? (organisationId, principalId) = some m →
        authVersion ≤ m.authVersion → ∃ m',
          (σ.step L tokens backend call).db.memberships.get? (organisationId, principalId) = some m' ∧
            authVersion ≤ m'.authVersion := by
      intro principalId m hm hle
      obtain ⟨m', hm', hgrown⟩ := hgrows _ m hm
      refine ⟨m', hm', hle.trans ?_⟩
      rcases hgrown with rfl | hlt
      · exact le_refl _
      · exact le_of_lt hlt
    obtain ⟨i, hs⟩ := List.mem_iff_getElem?.mp hs
    rcases (σ.step_effect L tokens backend call).row_of hs with ⟨s₀, hs₀, hstep⟩ | ⟨_, hcreated⟩
    · have hbound := hσ.bound s₀ (List.mem_of_getElem? hs₀) organisationId authVersion
      cases hstep with
      | same h =>
          rw [h] at hactive ⊢
          obtain ⟨m, hm, hle⟩ := hbound hactive
          exact hlater _ m hm hle
      | touched window _ h =>
          rw [h] at hactive ⊢
          obtain ⟨m, hm, hle⟩ := hbound hactive
          exact hlater _ m hm hle
      | rebound organisationId' m _ hm h =>
          rw [h] at hactive ⊢
          obtain ⟨rfl, rfl⟩ := Prod.mk.inj (Option.some.inj hactive)
          exact hlater _ m (activeMembership_eq_some.mp hm).1 (le_refl _)
      | revoked _ h =>
          rw [h] at hactive ⊢
          obtain ⟨m, hm, hle⟩ := hbound hactive
          exact hlater _ m hm hle
    · obtain ⟨m, hm, rfl⟩ := hcreated.bound organisationId authVersion hactive
      exact hlater _ m (activeMembership_eq_some.mp hm).1 (le_refl _)

end Step

theorem sound_initial (tokens : Nat → String) (principals : List Principal) (clock : Instant) :
    Sound tokens (AuthState.initial principals clock) where
  grounded := ⟨nofun, nofun⟩
  given := fun _ hs => absurd hs List.not_mem_nil
  distinct := fun _ _ _ _ hs => absurd (List.mem_of_getElem? hs) List.not_mem_nil
  bound := fun _ hs => absurd hs List.not_mem_nil

/-- **Every run keeps the states sound, and leads to a later one.** -/
theorem later_run {σ : AuthState} (hσ : Sound tokens σ) (htokens : Function.Injective tokens) (L : Letters)
    (backend : Backend) (calls : List (Nat × AuthOperation)) :
    Sound tokens (run (AuthState.step L tokens backend) σ calls) ∧
      Later tokens σ (run (AuthState.step L tokens backend) σ calls) := by
  apply run_keeps (AuthState.step L tokens backend) (I := fun σ' => Sound tokens σ' ∧ Later tokens σ σ')
  · rintro σ' call ⟨hσ', hlater⟩
    exact ⟨hσ'.step htokens L backend call, hlater.step hσ hσ' htokens⟩
  · exact ⟨hσ, Later.refl tokens σ⟩

/-! ## What is over -/

/-- What `lookup_session` reports. -/
theorem lookupSession_eq_some {tokenHash : String} {info : SessionInfo}
    (h : db.lookupSession backend tokenHash now = some info) :
    ∃ (i : Nat) (s : SessionRecord) (p : Principal), db.findSession tokenHash = some (i, s) ∧
      db.principals[s.val.principalId]? = some p ∧ info.sessionId = i ∧
      info.isRevoked = isRevoked s.val p now ∧ info.activeOrganisationId = s.val.active.map Prod.fst ∧
      ∀ organisationId authVersion, s.val.active = some (organisationId, authVersion) →
        info.isStale = (standing backend s.val.principalId organisationId authVersion db).1 := by
  unfold lookupSession at h
  split at h
  · cases h
  · rename_i i s hfound
    split at h
    · cases h
    · rename_i p hp
      obtain rfl := Option.some.inj h
      refine ⟨i, s, p, hfound, hp, rfl, rfl, rfl, fun organisationId authVersion hactive => ?_⟩
      simp only [hactive]

/-- A session that is not stale is bound to the membership as it is. -/
theorem standing_current {principalId organisationId : Nat} {authVersion : ℕ+}
    (h : (standing backend principalId organisationId authVersion db).1 = false) :
    ∃ m, db.memberships.get? (organisationId, principalId) = some m ∧ m.status = .active ∧
      m.authVersion = authVersion := by
  unfold standing at h
  split at h
  · cases h
  · split at h
    · cases h
    · cases h
  · rename_i o m _ hm
    split at h
    · split at h
      · cases h
      · cases h
    · rename_i hcurrent
      simp only [outdated, Bool.or_eq_true, decide_eq_true_eq, not_or, not_not] at hcurrent
      exact ⟨m, hm, hcurrent.1.1, hcurrent.2⟩

/-- Revoked, or past one of its two times. -/
theorem not_live_iff {s : UserSession} :
    s.live now = false ↔ s.revokedAt.isSome = true ∨ s.absoluteExpiresAt ≤ now ∨ s.idleExpiresAt ≤ now := by
  simp only [UserSession.live, Bool.and_eq_false_iff, Option.isNone_eq_false_iff, decide_eq_false_iff_not, not_lt,
    or_assoc]

theorem isRevoked_eq {s : UserSession} {p : Principal} : isRevoked s p now = (!s.live now || !p.isActive) := by
  rw [Bool.eq_iff_iff, Bool.or_eq_true, Bool.not_eq_true', not_live_iff]
  simp only [isRevoked, Bool.or_eq_true, decide_eq_true_eq, or_assoc]

/-- What is over is over for ever. -/
theorem Ages.ended {clock clock' : Instant} {s s' : UserSession} (h : Ages clock s s') (hclock : clock ≤ clock')
    (hover : s.live clock = false) : s'.live clock' = false ∧ s'.sessionTokenHash = s.sessionTokenHash := by
  rw [not_live_iff] at hover ⊢
  rcases hover with hrevoked | hexpired
  · rw [h.revoked hrevoked]
    exact ⟨Or.inl hrevoked, rfl⟩
  · obtain ⟨hidle, htoken⟩ := h.expired hexpired
    rw [h.absoluteExpiresAt, hidle]
    exact ⟨Or.inr (hexpired.imp (fun h => h.trans hclock) fun h => h.trans hclock), htoken⟩

/-- Nothing succeeds on a session that is over. -/
theorem refused_of_ended {tokenHash : String} {i : Nat} {s : SessionRecord}
    (hs : db.findSession tokenHash = some (i, s)) (hover : s.val.live now = false) :
    (∀ window throttle, db.touchSessionThrottled backend tokenHash now window throttle = .ok (false, db)) ∧
      ∀ target new answer, db.switchOrganisation backend tokenHash target new now ≠ .ok answer := by
  constructor
  · intro window throttle
    simp [touchSessionThrottled, hs, hover]
  · intro target new answer
    simp [switchOrganisation, hs, hover]

/-! ## The results -/

/-- What a state keeps of the authority of an earlier one. -/
structure AuthorityShrinks (backend : Backend) (σ σ' : AuthState) : Prop where
  ordered : ∀ s ∈ σ'.db.sessions, s.val.idleExpiresAt ≤ s.val.absoluteExpiresAt
  absolute : ∀ (i : Nat) (s : SessionRecord), σ.db.sessions[i]? = some s →
    ∃ s' : SessionRecord, σ'.db.sessions[i]? = some s' ∧ s'.val.absoluteExpiresAt = s.val.absoluteExpiresAt
  /-- A session that was reported revoked, by its token, is reported so for ever, and no call succeeds on it. -/
  ended : ∀ tokenHash info, σ.db.lookupSession backend tokenHash σ.clock = some info → info.isRevoked = true →
    (∃ info', σ'.db.lookupSession backend tokenHash σ'.clock = some info' ∧ info'.sessionId = info.sessionId ∧
      info'.isRevoked = true) ∧
    ∀ now, σ'.clock ≤ now →
      (∀ window throttle, σ'.db.touchSessionThrottled backend tokenHash now window throttle = .ok (false, σ'.db)) ∧
      ∀ target new answer, σ'.db.switchOrganisation backend tokenHash target new now ≠ .ok answer
  /-- A session that had its token already, and is not stale, is bound to the membership as it was then. -/
  standing : ∀ tokenHash i s info organisationId, σ.db.findSession tokenHash = some (i, s) →
    σ'.db.lookupSession backend tokenHash σ'.clock = some info → info.isStale = false →
    info.activeOrganisationId = some organisationId →
    ∃ m, σ'.db.memberships.get? (organisationId, s.val.principalId) = some m ∧ m.status = .active ∧
      σ.db.memberships.get? (organisationId, s.val.principalId) = some m

/-- What a switch and a revocation of all sessions leave in every later state. -/
structure EndsSessions (tokens : Nat → String) (backend : Backend) (σ : AuthState) (call : Nat × AuthOperation)
    (σ' : AuthState) : Prop where
  switched : ∀ tokenHash target answer, call.2 = .switchOrganisation tokenHash target →
    σ.db.switchOrganisation backend tokenHash target (tokens σ.generated) (σ.clock + call.1) = .ok answer →
    σ'.db.findSession tokenHash = none
  revokedAll : ∀ tokenHash count db', call.2 = .revokeAllSessions tokenHash →
    σ.db.revokeAllSessions tokenHash (σ.clock + call.1) = .ok (count, db') → 0 < count →
    ∀ i s, σ.db.findSession tokenHash = some (i, s) → ∀ (j : Nat) (t : SessionRecord), σ.db.sessions[j]? = some t →
      t.val.principalId = s.val.principalId →
      ∃ t' : SessionRecord, σ'.db.sessions[j]? = some t' ∧ t'.val.revokedAt.isSome = true

/-- On SQLite a session is created for an active principal. -/
def CreatesForActive (backend : Backend) (σ : AuthState) (call : Nat × AuthOperation) : Prop :=
  ∀ principalId activeOrgId, call.2 = .createSession principalId activeOrgId → backend = .sqlite →
    σ.db.principalActive principalId = true

/-- PostgreSQL asks for that itself. -/
theorem createsForActive_postgres {σ : AuthState} {call : Nat × AuthOperation} : CreatesForActive .postgres σ call := by
  intro _ _ _ hbackend
  cases hbackend

/-- Every session is one of an active principal. -/
def ActivePrincipals (σ : AuthState) : Prop :=
  ∀ s ∈ σ.db.sessions, σ.db.principalActive s.val.principalId = true

section Results

variable {σ σ' : AuthState} {call : Nat × AuthOperation}

theorem ActivePrincipals.step (h : ActivePrincipals σ) (hcreates : CreatesForActive backend σ call) :
    ActivePrincipals (σ.step L tokens backend call) := by
  intro s hs
  obtain ⟨i, hs⟩ := List.mem_iff_getElem?.mp hs
  unfold principalActive
  rw [(σ.step_effect L tokens backend call).principals]
  show σ.db.principalActive s.val.principalId = true
  rcases (σ.step_effect L tokens backend call).row_of hs with ⟨s₀, hs₀, hstep⟩ | ⟨_, hcreated⟩
  · have hsame : s.val.principalId = s₀.val.principalId := by
      cases hstep with
      | same h => rw [h]
      | touched _ _ h => rw [h]
      | rebound _ _ _ _ h => rw [h]
      | revoked _ h => rw [h]
    rw [hsame]
    exact h s₀ (List.mem_of_getElem? hs₀)
  · obtain ⟨activeOrgId, hcall⟩ := hcreated.call
    cases backend with
    | postgres => exact hcreated.active rfl
    | sqlite => exact hcreates _ activeOrgId hcall rfl

/-- A token leads to the session that has it. -/
theorem Sound.findSession (hσ : Sound tokens σ) {i : Nat} {s : SessionRecord} (hs : σ.db.sessions[i]? = some s) :
    σ.db.findSession s.val.sessionTokenHash = some (i, s) := by
  cases h : σ.db.findSession s.val.sessionTokenHash with
  | none => exact absurd rfl (findSession_eq_none h s (List.mem_of_getElem? hs))
  | some found =>
      obtain ⟨j, t⟩ := found
      obtain ⟨ht, htoken⟩ := findSession_eq_some h
      obtain rfl := hσ.distinct j i t s ht hs htoken
      rw [Option.some.inj (ht.symm.trans hs)]

theorem authorityShrinks (hσ : Sound tokens σ) (hσ' : Sound tokens σ') (hactive : ActivePrincipals σ)
    (hlater : Later tokens σ σ') : AuthorityShrinks backend σ σ' where
  ordered := fun s _ => s.ordered.2
  absolute := by
    intro i s hs
    obtain ⟨s', hs', hages⟩ := hlater.sessions i s hs
    exact ⟨s', hs', hages.absoluteExpiresAt⟩
  ended := by
    intro tokenHash info hlookup hrevoked
    obtain ⟨i, s, p, hfound, hp, hid, hinfo, _⟩ := lookupSession_eq_some hlookup
    obtain ⟨hs, rfl⟩ := findSession_eq_some hfound
    -- The principal is active, so the session itself is over.
    have hpActive : p.isActive = true := by
      have h := hactive s (List.mem_of_getElem? hs)
      unfold principalActive at h
      rw [hp] at h
      exact h
    have hover : s.val.live σ.clock = false := by
      rw [hinfo, isRevoked_eq, hpActive, Bool.not_true, Bool.or_false, Bool.not_eq_true'] at hrevoked
      exact hrevoked
    obtain ⟨s', hs', hages⟩ := hlater.sessions i s hs
    obtain ⟨hover', htoken⟩ := hages.ended hlater.clock hover
    have hfound' : σ'.db.findSession s.val.sessionTokenHash = some (i, s') := by
      rw [← htoken]
      exact hσ'.findSession hs'
    have hp' : σ'.db.principals[s'.val.principalId]? = some p := by
      rw [hlater.principals, hages.principalId]
      exact hp
    constructor
    · unfold lookupSession
      simp only [hfound', hp']
      refine ⟨_, rfl, hid.symm, ?_⟩
      show isRevoked s'.val p σ'.clock = true
      rw [isRevoked_eq, hover']
      rfl
    · intro now hnow
      exact refused_of_ended hfound' ((Ages.refl σ'.clock s'.val).ended hnow hover').1
  standing := by
    intro tokenHash i s info organisationId hfound hlookup hstale horganisation
    obtain ⟨hs, htoken⟩ := findSession_eq_some hfound
    obtain ⟨j, s', p, hfound', _, _, _, hinfo, hstanding⟩ := lookupSession_eq_some hlookup
    obtain ⟨hs', htoken'⟩ := findSession_eq_some hfound'
    -- The token was given out before, so it is the same session.
    obtain ⟨n, hn, hgiven⟩ := hσ.given s (List.mem_of_getElem? hs)
    obtain ⟨t, ht, htoken''⟩ := hlater.given j s' n hs' hn (htoken'.trans (htoken.symm.trans hgiven))
    obtain rfl := hσ.distinct i j s t hs ht (hgiven.trans htoken''.symm)
    obtain ⟨s'', hs'', hages⟩ := hlater.sessions i s hs
    obtain rfl := Option.some.inj (hs'.symm.trans hs'')
    have hbound := hages.bound (htoken'.trans htoken.symm)
    rw [hinfo] at horganisation
    obtain ⟨⟨organisationId', authVersion⟩, hbinding, rfl⟩ := Option.map_eq_some_iff.mp horganisation
    rw [hstanding organisationId' authVersion hbinding] at hstale
    obtain ⟨m, hm, hmActive, hversion⟩ := standing_current hstale
    rw [hages.principalId] at hm
    -- The version has not grown since, so the membership is the same.
    rw [hbound] at hbinding
    obtain ⟨m₀, hm₀, hle⟩ := hσ.bound s (List.mem_of_getElem? hs) organisationId' authVersion hbinding
    obtain ⟨m₁, hm₁, hgrown⟩ := hlater.grows _ m₀ hm₀
    obtain rfl := Option.some.inj (hm.symm.trans hm₁)
    rcases hgrown with rfl | hlt
    · exact ⟨m, hm, hmActive, hm₀⟩
    · rw [hversion] at hlt
      exact absurd hle (not_le.mpr hlt)

theorem endsSessions (hσ : Sound tokens σ) (htokens : Function.Injective tokens)
    (hlater : Later tokens (σ.step L tokens backend call) σ') : EndsSessions tokens backend σ call σ' where
  switched := by
    rintro tokenHash target ⟨answer, db'⟩ hcall hswitch
    obtain ⟨i, s, m, row, hfound, _, _, _, hrow, rfl⟩ := switchOrganisation_eq_ok hswitch
    obtain ⟨hs, rfl⟩ := findSession_eq_some hfound
    have hstep : (σ.step L tokens backend call).db.sessions = σ.db.sessions.set i row := by
      unfold AuthState.step
      simp only [hcall, AuthDatabase.perform, hswitch]
      rfl
    obtain ⟨n, hn, hgiven⟩ := hσ.given s (List.mem_of_getElem? hs)
    cases hfound' : σ'.db.findSession s.val.sessionTokenHash with
    | none => rfl
    | some found =>
        obtain ⟨j, s'⟩ := found
        obtain ⟨hs', htoken'⟩ := findSession_eq_some hfound'
        obtain ⟨t, ht, htoken⟩ := hlater.given j s' n hs' (hn.trans (Nat.lt_succ_self _)) (htoken'.trans hgiven)
        rw [hstep] at ht
        by_cases hij : i = j
        · subst hij
          rw [List.getElem?_set_self (List.getElem?_eq_some_iff.mp hs).1] at ht
          obtain rfl := Option.some.inj ht
          rw [hrow] at htoken
          have heq := htokens htoken
          omega
        · rw [List.getElem?_set_ne hij] at ht
          exact absurd (hσ.distinct i j s t hs ht (hgiven.trans htoken.symm)) hij
  revokedAll := by
    intro tokenHash count db' hcall hrevoke hpositive i s hfound j t ht hsame
    rcases revokeAllSessions_eq_ok hrevoke with ⟨rfl, _⟩ | ⟨i', s', rows, hfound', rfl, hrows⟩
    · cases hpositive
    · obtain ⟨rfl, rfl⟩ := Prod.mk.inj (Option.some.inj (hfound.symm.trans hfound'))
      have hstep : (σ.step L tokens backend call).db.sessions = rows := by
        unfold AuthState.step
        simp only [hcall, AuthDatabase.perform, hrevoke]
        rfl
      obtain ⟨hj, rfl⟩ := List.getElem?_eq_some_iff.mp ht
      obtain ⟨hlength, hrow⟩ := List.forall₂_iff_get.mp hrows
      have hj' : j < rows.length := hlength ▸ hj
      have hrow := hrow j hj hj'
      have hrevoked : (rows.get ⟨j, hj'⟩).val.revokedAt.isSome = true := by
        split at hrow
        · rw [hrow]
          rfl
        · rename_i hnot
          rw [Bool.and_eq_true, decide_eq_true_eq, not_and, Bool.not_eq_true, Option.isNone_eq_false_iff] at hnot
          rw [hrow]
          exact hnot hsame
      have hget : (σ.step L tokens backend call).db.sessions[j]? = some (rows.get ⟨j, hj'⟩) := by
        rw [hstep]
        exact List.getElem?_eq_getElem hj'
      obtain ⟨t', ht', hages⟩ := hlater.sessions j _ hget
      refine ⟨t', ht', ?_⟩
      rw [hages.revoked hrevoked]
      exact hrevoked

end Results

/-- **The authority of sessions only shrinks**, on every run in which sessions are created for active principals. -/
theorem authority_shrinks (L : Letters) (tokens : Nat → String) (backend : Backend) (principals : List Principal)
    (clock : Instant) (calls : List (Nat × AuthOperation)) (htokens : Function.Injective tokens)
    (hmeets : Meets (AuthState.step L tokens backend) (CreatesForActive backend)
      (AuthState.initial principals clock) calls) :
    (∀ before middle after, calls = before ++ middle ++ after →
      AuthorityShrinks backend (run (AuthState.step L tokens backend) (AuthState.initial principals clock) before)
        (run (AuthState.step L tokens backend) (AuthState.initial principals clock) (before ++ middle))) ∧
    ∀ before call middle after, calls = before ++ call :: middle ++ after →
      EndsSessions tokens backend
        (run (AuthState.step L tokens backend) (AuthState.initial principals clock) before) call
        (run (AuthState.step L tokens backend) (AuthState.initial principals clock) (before ++ call :: middle)) := by
  have hinitial := sound_initial tokens principals clock
  constructor
  · rintro before middle after rfl
    have hsound := (later_run hinitial htokens L backend before).1
    obtain ⟨hsound', hlater⟩ := later_run hsound htokens L backend middle
    rw [run_append]
    rw [List.append_assoc] at hmeets
    have hactive := run_invariant (AuthState.step L tokens backend) (I := ActivePrincipals)
      (fun _ _ h hcreates => h.step hcreates) (fun _ hs => absurd hs List.not_mem_nil)
      (meets_append (AuthState.step L tokens backend) hmeets).1
    exact authorityShrinks hsound hsound' hactive hlater
  · rintro before call middle after rfl
    have hsound := (later_run hinitial htokens L backend before).1
    have hlater := (later_run (hsound.step htokens L backend call) htokens L backend middle).2
    rw [run_append]
    exact endsSessions hsound htokens hlater

theorem unaryToken_injective : Function.Injective unaryToken := by
  intro n m h
  have hlength := congrArg (fun s : String => s.toList.length) h
  simpa [unaryToken] using hlength

/-- A session of the owner, and one of a principal who is not active: the second one cannot be created on PostgreSQL. -/
theorem authority_shrinks_owner :
    let calls : List (Nat × AuthOperation) :=
      [(0, .createSession 0 none), (0, .createSession 1 none), (61000000, .touchSession (unaryToken 0) 1800 60)]
    let σ := AuthState.initial [{ email := "o" }, { email := "m", isActive := false }] 0
    AuthorityShrinks .postgres (run (AuthState.step plainLetters unaryToken .postgres) σ [])
      (run (AuthState.step plainLetters unaryToken .postgres) σ ([] ++ calls)) :=
  (authority_shrinks plainLetters unaryToken .postgres [{ email := "o" }, { email := "m", isActive := false }] 0
    [(0, .createSession 0 none), (0, .createSession 1 none), (61000000, .touchSession (unaryToken 0) 1800 60)]
    unaryToken_injective ⟨createsForActive_postgres, createsForActive_postgres, createsForActive_postgres, trivial⟩).1
    [] _ [] rfl

/-- On SQLite the other session is created; it is reported revoked at once, and a touch of it succeeds. -/
theorem inactive_touched :
    let σ := run (AuthState.step plainLetters unaryToken .sqlite)
      (AuthState.initial [{ email := "m", isActive := false }] 0) [(0, .createSession 0 none)]
    (σ.db.lookupSession .sqlite (unaryToken 0) σ.clock).any SessionInfo.isRevoked = true ∧
      (σ.db.touchSessionThrottled .sqlite (unaryToken 0) 61000000).toOption.map Prod.fst = some true ∧
      ¬ AuthorityShrinks .sqlite σ σ := by
  intro σ
  have hrevoked : (σ.db.lookupSession .sqlite (unaryToken 0) σ.clock).any SessionInfo.isRevoked = true := by
    decide +kernel
  have htouched : (σ.db.touchSessionThrottled .sqlite (unaryToken 0) 61000000).toOption.map Prod.fst = some true := by
    decide +kernel
  refine ⟨hrevoked, htouched, fun hshrinks => ?_⟩
  obtain ⟨info, hinfo, hinfoRevoked⟩ := (Option.any_eq_true _ _).mp hrevoked
  have hrefused := ((hshrinks.ended (unaryToken 0) info hinfo hinfoRevoked).2 61000000 (by decide +kernel)).1 1800 60
  rw [show σ.db.touchSessionThrottled .sqlite (unaryToken 0) 61000000 = _ from hrefused] at htouched
  cases htouched

end Untangle
