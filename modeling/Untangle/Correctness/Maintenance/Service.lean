import Untangle.Correctness.Webapp.Middleware
import Untangle.Persistence.Maintenance

/-!
# `Correctness.Maintenance.Service` — calls on databases that a purge tells apart

Two databases are alike at a time if they differ only in sessions that are over by then and in the addresses of settled
invitations (`ServedAlike`). Every call of the identity service answers the same on both, and leaves databases that are
alike (`ServedAlike.call`): it finds a session only by its token, and goes on only if the session is live.
-/

namespace Untangle

open Lib AuthDatabase

/-- An invitation, but for the address if it is settled. -/
def InvitationRecord.settled (i : InvitationRecord) : InvitationRecord :=
  if i.val.status = .pending then i else i.redact

/-- What is live was live before. -/
theorem UserSession.live_mono {s : UserSession} {now later : Instant} (hle : now ≤ later) (h : s.live later = true) :
    s.live now = true := by
  obtain ⟨hrevoked, habsolute, hidle⟩ := UserSession.live_iff.mp h
  exact UserSession.live_iff.mpr ⟨hrevoked, hle.trans_lt habsolute, hle.trans_lt hidle⟩

namespace AuthDatabase

/-- The same for the service. -/
structure ServedAlike (now : Instant) (db db' : AuthDatabase) : Prop where
  principals : db.principals = db'.principals
  organisations : db.organisations = db'.organisations
  memberships : db.memberships = db'.memberships
  sessions : ∀ s : SessionRecord, s.val.live now = true → (s ∈ db.sessions ↔ s ∈ db'.sessions)
  invitations : db.invitations.map InvitationRecord.settled = db'.invitations.map InvitationRecord.settled

/-- What the calls keep of the sessions. -/
structure Tidy (now : Instant) (db : AuthDatabase) : Prop where
  distinct : DistinctTokens db
  born : ∀ s ∈ db.sessions, s.val.createdAt ≤ now

variable {now : Instant} {db db' db'' : AuthDatabase}

theorem ServedAlike.refl (now : Instant) (db : AuthDatabase) : ServedAlike now db db :=
  ⟨rfl, rfl, rfl, fun _ _ => Iff.rfl, rfl⟩

theorem ServedAlike.symm (h : ServedAlike now db db') : ServedAlike now db' db :=
  ⟨h.principals.symm, h.organisations.symm, h.memberships.symm, fun s hs => (h.sessions s hs).symm, h.invitations.symm⟩

theorem ServedAlike.trans (h : ServedAlike now db db') (h' : ServedAlike now db' db'') : ServedAlike now db db'' :=
  ⟨h.principals.trans h'.principals, h.organisations.trans h'.organisations, h.memberships.trans h'.memberships,
    fun s hs => (h.sessions s hs).trans (h'.sessions s hs), h.invitations.trans h'.invitations⟩

theorem ServedAlike.mono {later : Instant} (hle : now ≤ later) (h : ServedAlike now db db') :
    ServedAlike later db db' :=
  { h with sessions := fun s hs => h.sessions s (UserSession.live_mono hle hs) }

theorem Tidy.mono {later : Instant} (hle : now ≤ later) (h : Tidy now db) : Tidy later db :=
  ⟨h.distinct, fun s hs => (h.born s hs).trans hle⟩

/-! ## Tokens -/

/-- A token leads to the session that has it. -/
theorem findSession_of_mem (hdistinct : DistinctTokens db) {s : SessionRecord} (hs : s ∈ db.sessions) :
    ∃ i, db.findSession s.val.sessionTokenHash = some (i, s) := by
  cases h : db.findSession s.val.sessionTokenHash with
  | none => exact absurd rfl (findSession_eq_none h s hs)
  | some found =>
      obtain ⟨i, hi⟩ := List.mem_iff_getElem?.mp hs
      obtain ⟨ht, htoken⟩ := findSession_eq_some h
      obtain rfl := hdistinct found.1 i found.2 s ht hi htoken
      rw [hi] at ht
      exact ⟨found.1, by rw [Option.some.inj ht]⟩

/-- No live session has the token. -/
def NotLive (now : Instant) (db : AuthDatabase) (tokenHash : String) : Prop :=
  ∀ i s, db.findSession tokenHash = some (i, s) → s.val.live now = false

theorem ServedAlike.findSession (h : ServedAlike now db db') (hdistinct : DistinctTokens db') {tokenHash : String}
    {i : Nat} {s : SessionRecord} (hfound : db.findSession tokenHash = some (i, s)) (hlive : s.val.live now = true) :
    ∃ j, db'.findSession tokenHash = some (j, s) := by
  obtain ⟨hs, rfl⟩ := findSession_eq_some hfound
  exact findSession_of_mem hdistinct ((h.sessions s hlive).mp (List.mem_of_getElem? hs))

/-- A token leads to the same live session in both, or to none in either. -/
theorem ServedAlike.token_cases (h : ServedAlike now db db') (hdb : Tidy now db) (hdb' : Tidy now db')
    (tokenHash : String) :
    (∃ i j s, db.findSession tokenHash = some (i, s) ∧ db'.findSession tokenHash = some (j, s) ∧
      s.val.live now = true) ∨ (NotLive now db tokenHash ∧ NotLive now db' tokenHash) := by
  -- A live row is in both, so the token leads to it in both or to no live one at all.
  by_cases hlive : ∃ i s, db.findSession tokenHash = some (i, s) ∧ s.val.live now = true
  · obtain ⟨i, s, hfound, hlive⟩ := hlive
    obtain ⟨j, hfound'⟩ := h.findSession hdb'.distinct hfound hlive
    exact Or.inl ⟨i, j, s, hfound, hfound', hlive⟩
  · refine Or.inr ⟨fun i s hfound => ?_, fun j s hfound => ?_⟩
    · exact Bool.eq_false_iff.mpr fun hs => hlive ⟨i, s, hfound, hs⟩
    · refine Bool.eq_false_iff.mpr fun hs => ?_
      obtain ⟨i, hfound'⟩ := h.symm.findSession hdb.distinct hfound hs
      exact hlive ⟨i, s, hfound', hs⟩

theorem NotLive.caller {tokenHash : String} (h : NotLive now db tokenHash) : db.caller tokenHash now = none := by
  unfold AuthDatabase.caller
  cases hfound : db.findSession tokenHash with
  | none => rfl
  | some found =>
      dsimp only
      rw [h found.1 found.2 hfound]
      rfl

/-- Which error is raised depends on whether there is a row, that one is raised does not. -/
theorem NotLive.currentActor {tokenHash : String} (h : NotLive now db tokenHash) :
    (AuthDatabase.currentActor tokenHash now db).toOption = none := by
  unfold AuthDatabase.currentActor
  rw [h.caller]
  split
  · rfl
  · rfl

/-! ## What is read -/

section Reads

variable (h : ServedAlike now db db')

include h

theorem ServedAlike.principalActive (principalId : Nat) :
    db.principalActive principalId = db'.principalActive principalId := by
  unfold AuthDatabase.principalActive
  rw [h.principals]

theorem ServedAlike.organisationActive (organisationId : Nat) :
    db.organisationActive organisationId = db'.organisationActive organisationId := by
  unfold AuthDatabase.organisationActive
  rw [h.organisations]

theorem ServedAlike.activeMembership (organisationId principalId : Nat) :
    db.activeMembership organisationId principalId = db'.activeMembership organisationId principalId := by
  unfold AuthDatabase.activeMembership
  rw [h.memberships]

theorem ServedAlike.caller (hdb : Tidy now db) (hdb' : Tidy now db') (tokenHash : String) :
    db.caller tokenHash now = db'.caller tokenHash now := by
  rcases h.token_cases hdb hdb' tokenHash with ⟨i, j, s, hfound, hfound', -⟩ | ⟨hnot, hnot'⟩
  · unfold AuthDatabase.caller
    rw [hfound, hfound']
    dsimp only
    rw [h.principalActive]
  · rw [hnot.caller, hnot'.caller]

theorem ServedAlike.activeActor (hdb : Tidy now db) (hdb' : Tidy now db') (backend : Backend) (forbidden : AuthError)
    (tokenHash : String) :
    AuthDatabase.activeActor backend forbidden tokenHash now db =
      AuthDatabase.activeActor backend forbidden tokenHash now db' := by
  unfold AuthDatabase.activeActor
  rw [h.caller hdb hdb']
  cases db'.caller tokenHash now with
  | none => rfl
  | some s =>
      dsimp only
      cases s.active with
      | none => rfl
      | some active =>
          dsimp only
          rw [h.activeMembership]

/-- A session that is over raises another error than a missing one. -/
theorem ServedAlike.currentActor (hdb : Tidy now db) (hdb' : Tidy now db') (tokenHash : String) :
    (AuthDatabase.currentActor tokenHash now db).toOption = (AuthDatabase.currentActor tokenHash now db').toOption := by
  rcases h.token_cases hdb hdb' tokenHash with ⟨i, j, s, hfound, hfound', -⟩ | ⟨hnot, hnot'⟩
  · unfold AuthDatabase.currentActor
    rw [h.caller hdb hdb', hfound, hfound']
    simp only [Option.bind_some, h.activeMembership, h.organisationActive]
  · rw [hnot.currentActor, hnot'.currentActor]

theorem ServedAlike.mutationActor (hdb : Tidy now db) (hdb' : Tidy now db') (backend : Backend) (tokenHash : String) :
    (AuthDatabase.mutationActor tokenHash now db backend).toOption =
      (AuthDatabase.mutationActor tokenHash now db' backend).toOption := by
  cases backend with
  | postgres => exact h.currentActor hdb hdb' tokenHash
  | sqlite => exact congrArg _ (h.activeActor hdb hdb' .sqlite mayNotMutate tokenHash)

end Reads

/-! ## What is written -/

/-- The rows after an update of one. -/
theorem mem_set_session (hdistinct : DistinctTokens db) {i : Nat} {s row r : SessionRecord}
    (hs : db.sessions[i]? = some s) : r ∈ db.sessions.set i row ↔ r = row ∨ (r ∈ db.sessions ∧ r ≠ s) := by
  have hi := (List.getElem?_eq_some_iff.mp hs).1
  constructor
  · intro hr
    obtain ⟨k, hk⟩ := List.mem_iff_getElem?.mp hr
    by_cases hik : i = k
    · subst hik
      rw [List.getElem?_set_self hi] at hk
      exact Or.inl (Option.some.inj hk).symm
    · rw [List.getElem?_set_ne hik] at hk
      -- Tokens are distinct, so the row that is replaced is at no other place.
      refine Or.inr ⟨List.mem_of_getElem? hk, ?_⟩
      rintro rfl
      exact hik (hdistinct i k r r hs hk rfl)
  · rintro (rfl | ⟨hr, hne⟩)
    · exact List.mem_of_getElem? (List.getElem?_set_self hi)
    · obtain ⟨k, hk⟩ := List.mem_iff_getElem?.mp hr
      have hik : i ≠ k := by
        rintro rfl
        exact hne (Option.some.inj (hk.symm.trans hs))
      exact List.mem_of_getElem? ((List.getElem?_set_ne hik).trans hk)

/-- An update of a live session. -/
theorem ServedAlike.set (h : ServedAlike now db db') (hdb : Tidy now db) (hdb' : Tidy now db') {i j : Nat}
    {s : SessionRecord} (hs : db.sessions[i]? = some s) (hs' : db'.sessions[j]? = some s) (row : SessionRecord) :
    ServedAlike now { db with sessions := db.sessions.set i row } { db' with sessions := db'.sessions.set j row } :=
  { h with
    sessions := fun r hr => by
      rw [mem_set_session hdb.distinct hs, mem_set_session hdb'.distinct hs', h.sessions r hr] }

/-- An update of a session that is over, and stays so. -/
theorem ServedAlike.set_over (hdb : Tidy now db) {i : Nat} {s row : SessionRecord} (hs : db.sessions[i]? = some s)
    (hover : s.val.live now = false) (hrow : row.val.live now = false) :
    ServedAlike now db { db with sessions := db.sessions.set i row } :=
  { ServedAlike.refl now db with
    sessions := fun r hr => by
      rw [mem_set_session hdb.distinct hs]
      constructor
      · intro hmem
        refine Or.inr ⟨hmem, ?_⟩
        rintro rfl
        rw [hover] at hr
        cases hr
      · rintro (rfl | ⟨hmem, -⟩)
        · rw [hrow] at hr
          cases hr
        · exact hmem }

theorem ServedAlike.append (h : ServedAlike now db db') (row : SessionRecord) :
    ServedAlike now { db with sessions := db.sessions ++ [row] } { db' with sessions := db'.sessions ++ [row] } :=
  { h with
    sessions := fun r hr => by rw [List.mem_append, List.mem_append, h.sessions r hr] }

theorem not_live_of_revoked {s : UserSession} (revoked : Instant) :
    ({ s with revokedAt := some revoked }).live now = false :=
  not_live_iff.mpr (Or.inl rfl)

/-- A session that was created before can be revoked. -/
theorem storeSession_revoked {s : SessionRecord} (hborn : s.val.createdAt ≤ now) :
    ∃ row : SessionRecord, storeSession { s.val with revokedAt := some now } = .ok row ∧
      row.val = { s.val with revokedAt := some now } := by
  have hcheck : ({ s.val with revokedAt := some now } : UserSession).check = true := by
    have hold := s.property
    unfold UserSession.check at hold ⊢
    rw [Bool.and_eq_true] at hold ⊢
    exact ⟨hold.1, decide_eq_true hborn⟩
  exact ⟨⟨_, hcheck⟩, storeSession_eq_ok.mpr rfl, rfl⟩

/-- `UPDATE … SET revoked_at` succeeds, and what is live afterwards is not of those. -/
theorem revokeSessions_live (hdb : Tidy now db) (which : UserSession → Bool) :
    ∃ rows, db.revokeSessions which now = .ok { db with sessions := rows } ∧
      ∀ r : SessionRecord, r.val.live now = true → (r ∈ rows ↔ r ∈ db.sessions ∧ which r.val = false) := by
  have hstore : ∀ s ∈ db.sessions, ∃ row,
      (if which s.val && s.val.revokedAt.isNone then storeSession { s.val with revokedAt := some now } else pure s) =
        .ok row := by
    intro s hs
    split
    · obtain ⟨row, hrow, -⟩ := storeSession_revoked (hdb.born s hs)
      exact ⟨row, hrow⟩
    · exact ⟨s, rfl⟩
  obtain ⟨rows, hrows⟩ := exists_mapM_ok hstore
  -- A row that is live afterwards was not touched.
  have huntouched : ∀ s r : SessionRecord, (if which s.val && s.val.revokedAt.isNone then
      storeSession { s.val with revokedAt := some now } else pure s) = .ok r → r.val.live now = true →
      r = s ∧ which s.val = false := by
    intro s r hr hlive
    split at hr
    · rw [storeSession_eq_ok.mp hr, not_live_of_revoked] at hlive
      cases hlive
    · rename_i hwhich
      obtain rfl := Except.ok.inj hr
      rw [(UserSession.live_iff.mp hlive).1, Option.isNone_none, Bool.and_true, Bool.not_eq_true] at hwhich
      exact ⟨rfl, hwhich⟩
  refine ⟨rows, ?_, fun r hlive => ⟨fun hr => ?_, fun hr => ?_⟩⟩
  · unfold AuthDatabase.revokeSessions
    rw [hrows]
    rfl
  · obtain ⟨s, hs, hsr⟩ := exists_of_mem_mapM hrows hr
    obtain ⟨rfl, hwhich⟩ := huntouched s r hsr hlive
    exact ⟨hs, hwhich⟩
  · obtain ⟨r', hr', hsr⟩ := exists_mem_of_mapM hrows hr.1
    rw [hr.2, Bool.false_and, if_neg Bool.false_ne_true] at hsr
    obtain rfl := Except.ok.inj hsr
    exact hr'

/-! ## Answers -/

/-- The same answer, with databases that are alike, or two errors. -/
inductive SameAnswer {α : Type} (now : Instant) :
    Except AuthError (α × AuthDatabase) → Except AuthError (α × AuthDatabase) → Prop
  | answered (a : α) {db db' : AuthDatabase} (h : ServedAlike now db db') : SameAnswer now (.ok (a, db)) (.ok (a, db'))
  | refused (e e' : AuthError) : SameAnswer now (.error e) (.error e')

section Rules

variable {α β : Type}

theorem SameAnswer.cases {x y : Except AuthError (α × AuthDatabase)} (h : SameAnswer now x y) :
    (∃ e e', x = .error e ∧ y = .error e') ∨
      ∃ a db db', x = .ok (a, db) ∧ y = .ok (a, db') ∧ ServedAlike now db db' := by
  cases h with
  | answered a h => exact Or.inr ⟨a, _, _, rfl, rfl, h⟩
  | refused e e' => exact Or.inl ⟨e, e', rfl, rfl⟩

theorem SameAnswer.map {x y : Except AuthError (α × AuthDatabase)} (h : SameAnswer now x y) (f : α → β) :
    SameAnswer now (x.map fun r => (f r.1, r.2)) (y.map fun r => (f r.1, r.2)) := by
  cases h with
  | answered a h => exact .answered (f a) h
  | refused e e' => exact .refused e e'

theorem SameAnswer.bind {x y : Except AuthError β} (hxy : x.toOption = y.toOption)
    {f g : β → Except AuthError (α × AuthDatabase)} (h : ∀ b, x = .ok b → SameAnswer now (f b) (g b)) :
    SameAnswer now (x >>= f) (y >>= g) := by
  cases x with
  | error e =>
      cases y with
      | error e' => exact .refused e e'
      | ok b => cases hxy
  | ok b =>
      cases y with
      | error e' => cases hxy
      | ok b' =>
          obtain rfl := Option.some.inj hxy
          exact h b rfl

theorem SameAnswer.refuseIf {c c' : Prop} [Decidable c] [Decidable c'] (hc : c ↔ c') (e : AuthError)
    {f g : Unit → Except AuthError (α × AuthDatabase)} (h : ¬ c → SameAnswer now (f ()) (g ())) :
    SameAnswer now (Lib.refuseIf c e >>= f) (Lib.refuseIf c' e >>= g) := by
  by_cases hholds : c
  · rw [show Lib.refuseIf c e = .error e from if_pos hholds,
      show Lib.refuseIf c' e = .error e from if_pos (hc.mp hholds)]
    exact .refused e e
  · rw [refuseIf_eq_ok.mpr hholds, refuseIf_eq_ok.mpr (mt hc.mpr hholds)]
    exact h hholds

end Rules

/-! ## Sessions -/

section Calls

variable {backend : Backend} {L : Letters} {fresh : String}

theorem tokenTaken_own (hdb : Tidy now db) {i : Nat} {s : SessionRecord} (hs : db.sessions[i]? = some s) :
    db.tokenTaken s.val.sessionTokenHash i = false := by
  by_contra htaken
  obtain ⟨p, hp, hsame⟩ := List.any_eq_true.mp (Bool.of_not_eq_false htaken)
  simp only [Bool.and_eq_true, decide_eq_true_eq] at hsame
  exact hsame.2 (hdb.distinct _ _ _ _ (List.mem_zipIdx_iff_getElem?.mp hp) hs hsame.1)

theorem tokenTaken_fresh (hfresh : ∀ s ∈ db.sessions, s.val.sessionTokenHash ≠ fresh) (i : Nat) :
    db.tokenTaken fresh i = false := by
  by_contra htaken
  obtain ⟨p, hp, hsame⟩ := List.any_eq_true.mp (Bool.of_not_eq_false htaken)
  simp only [Bool.and_eq_true, decide_eq_true_eq] at hsame
  exact hfresh _ (List.mem_of_getElem? (List.mem_zipIdx_iff_getElem?.mp hp)) hsame.1

theorem findSession_fresh (hfresh : ∀ s ∈ db.sessions, s.val.sessionTokenHash ≠ fresh) :
    db.findSession fresh = none := by
  cases h : db.findSession fresh with
  | none => rfl
  | some found =>
      obtain ⟨hs, htoken⟩ := findSession_eq_some h
      exact absurd htoken (hfresh _ (List.mem_of_getElem? hs))

/-! ### The token of no live session -/

theorem NotLive.touchSessionThrottled {tokenHash : String} (h : NotLive now db tokenHash)
    (idleWindowSeconds throttleSeconds : ℤ) :
    db.touchSessionThrottled backend tokenHash now idleWindowSeconds throttleSeconds = .ok (false, db) := by
  cases hfound : db.findSession tokenHash with
  | none =>
      unfold AuthDatabase.touchSessionThrottled
      rw [hfound]
  | some found => exact (refused_of_ended hfound (h found.1 found.2 hfound)).1 _ _

theorem NotLive.switchOrganisation {tokenHash : String} (h : NotLive now db tokenHash) (backend : Backend)
    (fresh : String) (targetOrgId : Nat) :
    ∃ e, db.switchOrganisation backend tokenHash targetOrgId fresh now = .error e := by
  cases hresult : db.switchOrganisation backend tokenHash targetOrgId fresh now with
  | error e => exact ⟨e, rfl⟩
  | ok answer =>
      obtain ⟨i, s, m, row, hfound, hlive, -⟩ := switchOrganisation_eq_ok hresult
      rw [h i s hfound] at hlive
      cases hlive

/-- What is revoked is over already. -/
theorem NotLive.revokeSession {tokenHash : String} (h : NotLive now db tokenHash) (hdb : Tidy now db) :
    ∃ b db', db.revokeSession tokenHash now = .ok (b, db') ∧ ServedAlike now db db' := by
  unfold AuthDatabase.revokeSession
  cases hfound : db.findSession tokenHash with
  | none => exact ⟨false, db, rfl, ServedAlike.refl now db⟩
  | some found =>
      obtain ⟨i, s⟩ := found
      obtain ⟨hs, rfl⟩ := findSession_eq_some hfound
      dsimp only
      split
      · obtain ⟨row, -, hval⟩ := storeSession_revoked (hdb.born s (List.mem_of_getElem? hs))
        have hupdate : db.updateSession i { s.val with revokedAt := some now } =
            .ok { db with sessions := db.sessions.set i row } :=
          updateSession_eq_ok.mpr ⟨tokenTaken_own hdb hs, row, hval, rfl⟩
        refine ⟨true, { db with sessions := db.sessions.set i row }, ?_, ?_⟩
        · rw [hupdate]
          rfl
        · exact ServedAlike.set_over hdb hs (h i s hfound) (by rw [hval]; exact not_live_of_revoked now)
      · exact ⟨false, db, rfl, ServedAlike.refl now db⟩

theorem NotLive.revokeAllSessions {tokenHash : String} (h : NotLive now db tokenHash) :
    db.revokeAllSessions tokenHash now = .ok (0, db) := by
  unfold AuthDatabase.revokeAllSessions
  cases hfound : db.findSession tokenHash with
  | none => rfl
  | some found =>
      dsimp only
      rw [h found.1 found.2 hfound, if_neg Bool.false_ne_true]

theorem NotLive.lookupSession {tokenHash : String} (h : NotLive now db tokenHash) :
    (db.lookupSession backend tokenHash now).filter (fun info => !info.isRevoked) = none := by
  refine Option.filter_eq_none_iff.mpr fun info hlookup => ?_
  obtain ⟨i, s, p, hfound, -, -, hrevoked, -⟩ := lookupSession_eq_some hlookup
  rw [hrevoked, isRevoked_eq, h i s hfound]
  simp

/-- An update of the live session of a token, in both. -/
theorem ServedAlike.updateSession {α : Type} (h : ServedAlike now db db') (hdb : Tidy now db) (hdb' : Tidy now db')
    {i j : Nat} {s : SessionRecord} (hs : db.sessions[i]? = some s) (hs' : db'.sessions[j]? = some s) {row : UserSession}
    (htaken : db.tokenTaken row.sessionTokenHash i = false) (htaken' : db'.tokenTaken row.sessionTokenHash j = false)
    (a : α) :
    SameAnswer now (db.updateSession i row >>= fun d => pure (a, d))
      (db'.updateSession j row >>= fun d => pure (a, d)) := by
  unfold AuthDatabase.updateSession
  rw [htaken, htaken']
  show SameAnswer now
    ((storeSession row >>= fun r => pure { db with sessions := db.sessions.set i r }) >>= fun d => pure (a, d))
    ((storeSession row >>= fun r => pure { db' with sessions := db'.sessions.set j r }) >>= fun d => pure (a, d))
  cases storeSession row with
  | error e => exact .refused e e
  | ok r => exact .answered a (h.set hdb hdb' hs hs' r)

section Pair

variable (h : ServedAlike now db db') (hdb : Tidy now db) (hdb' : Tidy now db')

include h

theorem ServedAlike.createSession (hfresh : ∀ s ∈ db.sessions, s.val.sessionTokenHash ≠ fresh)
    (hfresh' : ∀ s ∈ db'.sessions, s.val.sessionTokenHash ≠ fresh) (principalId : Nat) (activeOrgId : Option Nat) :
    SameAnswer now ((db.createSession backend principalId activeOrgId fresh now).map fun d => (ServiceAnswer.done, d))
      ((db'.createSession backend principalId activeOrgId fresh now).map fun d => (ServiceAnswer.done, d)) := by
  have hbinding : bindingFor backend principalId activeOrgId db = bindingFor backend principalId activeOrgId db' := by
    unfold bindingFor
    simp only [h.principalActive, h.activeMembership, h.organisationActive]
  unfold AuthDatabase.createSession
  rw [hbinding, h.principals, findSession_fresh hfresh, findSession_fresh hfresh']
  cases bindingFor backend principalId activeOrgId db' with
  | error e => exact .refused e e
  | ok active =>
      by_cases hprincipal : db'.principals[principalId]?.isNone = true
      · rw [show refuseIf (db'.principals[principalId]?.isNone = true) AuthError.foreignKeyViolation =
          .error .foreignKeyViolation from if_pos hprincipal]
        exact .refused _ _
      · rw [refuseIf_eq_ok.mpr hprincipal]
        have hunused : ¬ (none : Option (Nat × SessionRecord)).isSome = true := by simp
        simp only [bind, Except.bind, refuseIf_eq_ok.mpr hunused]
        cases storeSession _ with
        | error e => exact .refused e e
        | ok row => exact .answered _ { h.append row with principals := rfl }

include hdb hdb'

theorem ServedAlike.touchSessionThrottled (tokenHash : String) (idleWindowSeconds throttleSeconds : ℤ) :
    SameAnswer now (db.touchSessionThrottled backend tokenHash now idleWindowSeconds throttleSeconds)
      (db'.touchSessionThrottled backend tokenHash now idleWindowSeconds throttleSeconds) := by
  rcases h.token_cases hdb hdb' tokenHash with ⟨i, j, s, hfound, hfound', hlive⟩ | ⟨hnot, hnot'⟩
  · obtain ⟨hs, rfl⟩ := findSession_eq_some hfound
    obtain ⟨hs', -⟩ := findSession_eq_some hfound'
    unfold AuthDatabase.touchSessionThrottled
    rw [hfound, hfound']
    dsimp only
    split
    · refine h.updateSession hdb hdb' hs hs' ?_ ?_ true
      · exact tokenTaken_own hdb hs
      · exact tokenTaken_own hdb' hs'
    · exact .answered false h
  · rw [hnot.touchSessionThrottled, hnot'.touchSessionThrottled]
    exact .answered false h

theorem ServedAlike.switchOrganisation (hfresh : ∀ s ∈ db.sessions, s.val.sessionTokenHash ≠ fresh)
    (hfresh' : ∀ s ∈ db'.sessions, s.val.sessionTokenHash ≠ fresh) (tokenHash : String) (targetOrgId : Nat) :
    SameAnswer now (db.switchOrganisation backend tokenHash targetOrgId fresh now)
      (db'.switchOrganisation backend tokenHash targetOrgId fresh now) := by
  rcases h.token_cases hdb hdb' tokenHash with ⟨i, j, s, hfound, hfound', hlive⟩ | ⟨hnot, hnot'⟩
  · obtain ⟨hs, -⟩ := findSession_eq_some hfound
    obtain ⟨hs', -⟩ := findSession_eq_some hfound'
    unfold AuthDatabase.switchOrganisation
    rw [hfound, hfound']
    dsimp only
    rw [h.principalActive, h.organisationActive, h.activeMembership]
    split
    · split
      · split
        · exact .refused _ _
        · exact h.updateSession hdb hdb' hs hs' (tokenTaken_fresh hfresh i) (tokenTaken_fresh hfresh' j) _
      · exact .refused _ _
    · exact .refused _ _
  · obtain ⟨e, he⟩ := hnot.switchOrganisation backend fresh targetOrgId
    obtain ⟨e', he'⟩ := hnot'.switchOrganisation backend fresh targetOrgId
    rw [he, he']
    exact .refused e e'

/-- A session that is over may still be revoked, which nobody sees. -/
theorem ServedAlike.revokeSession (tokenHash : String) :
    SameAnswer now ((db.revokeSession tokenHash now).map fun r => (ServiceAnswer.done, r.2))
      ((db'.revokeSession tokenHash now).map fun r => (ServiceAnswer.done, r.2)) := by
  rcases h.token_cases hdb hdb' tokenHash with ⟨i, j, s, hfound, hfound', hlive⟩ | ⟨hnot, hnot'⟩
  · obtain ⟨hs, rfl⟩ := findSession_eq_some hfound
    obtain ⟨hs', -⟩ := findSession_eq_some hfound'
    unfold AuthDatabase.revokeSession
    rw [hfound, hfound']
    dsimp only
    rw [(UserSession.live_iff.mp hlive).1]
    have hsame : SameAnswer now
        (db.updateSession i { s.val with revokedAt := some now } >>= fun d => pure (true, d))
        (db'.updateSession j { s.val with revokedAt := some now } >>= fun d => pure (true, d)) := by
      refine h.updateSession hdb hdb' hs hs' ?_ ?_ true
      · exact tokenTaken_own hdb hs
      · exact tokenTaken_own hdb' hs'
    exact hsame.map fun _ => ServiceAnswer.done
  · obtain ⟨b, d, hrevoke, hd⟩ := hnot.revokeSession hdb
    obtain ⟨b', d', hrevoke', hd'⟩ := hnot'.revokeSession hdb'
    rw [hrevoke, hrevoke']
    exact .answered _ (hd.symm.trans (h.trans hd'))

/-- The revocation of the sessions of a kind, in both. -/
theorem ServedAlike.revokeSessions (which : UserSession → Bool) :
    ∃ d d', db.revokeSessions which now = .ok d ∧ db'.revokeSessions which now = .ok d' ∧ ServedAlike now d d' := by
  obtain ⟨rows, hrows, hlive⟩ := revokeSessions_live hdb which
  obtain ⟨rows', hrows', hlive'⟩ := revokeSessions_live hdb' which
  refine ⟨_, _, hrows, hrows', { h with sessions := fun r hr => ?_ }⟩
  rw [hlive r hr, hlive' r hr, h.sessions r hr]

theorem ServedAlike.revokeAllSessions (tokenHash : String) :
    SameAnswer now ((db.revokeAllSessions tokenHash now).map fun r => (ServiceAnswer.done, r.2))
      ((db'.revokeAllSessions tokenHash now).map fun r => (ServiceAnswer.done, r.2)) := by
  rcases h.token_cases hdb hdb' tokenHash with ⟨i, j, s, hfound, hfound', hlive⟩ | ⟨hnot, hnot'⟩
  · obtain ⟨d, d', hrevoke, hrevoke', hd⟩ := h.revokeSessions hdb hdb' fun t => t.principalId = s.val.principalId
    unfold AuthDatabase.revokeAllSessions
    rw [hfound, hfound']
    dsimp only
    rw [if_pos hlive, if_pos hlive, hrevoke, hrevoke']
    exact .answered _ hd
  · rw [hnot.revokeAllSessions, hnot'.revokeAllSessions]
    exact .answered _ h

/-! ## Organisations and memberships -/

omit hdb hdb' in
theorem ServedAlike.insertMembership {α : Type} (organisationId principalId : Nat) (m : OrganisationMembership)
    (a : α) :
    SameAnswer now (db.insertMembership organisationId principalId m >>= fun d => pure (a, d))
      (db'.insertMembership organisationId principalId m >>= fun d => pure (a, d)) := by
  unfold AuthDatabase.insertMembership
  rw [h.memberships, h.organisations, h.principals]
  split
  · exact .refused _ _
  · split
    · exact .refused _ _
    · exact .answered a { h with memberships := rfl, organisations := rfl, principals := rfl }

theorem ServedAlike.createOrganisation (tokenHash name : String) :
    SameAnswer now (db.createOrganisation tokenHash name now) (db'.createOrganisation tokenHash name now) := by
  unfold AuthDatabase.createOrganisation
  rw [h.caller hdb hdb', h.organisations]
  cases db'.caller tokenHash now with
  | none => exact .refused _ _
  | some s =>
      have hadded : ServedAlike now { db with organisations := db'.organisations ++ [{ name := name }] }
          { db' with organisations := db'.organisations ++ [{ name := name }] } := { h with organisations := rfl }
      exact hadded.insertMembership _ _ _ _

theorem ServedAlike.mutateMembership (tokenHash : String) (targetPrincipalId : Nat) (newRoleCode newStatus : String) :
    SameAnswer now (db.mutateMembership backend tokenHash targetPrincipalId newRoleCode newStatus now)
      (db'.mutateMembership backend tokenHash targetPrincipalId newRoleCode newStatus now) := by
  refine SameAnswer.bind (h.mutationActor hdb hdb' backend tokenHash) fun actor _ => ?_
  have htarget : mutationTarget actor targetPrincipalId newRoleCode newStatus db =
      mutationTarget actor targetPrincipalId newRoleCode newStatus db' := by
    unfold mutationTarget activeOwners
    rw [h.memberships]
  unfold mutateAs
  rw [htarget]
  refine SameAnswer.bind rfl fun target _ => SameAnswer.bind rfl fun m _ => ?_
  have hinserted : ServedAlike now
      { db with memberships := db.memberships.insert (actor.organisationId, targetPrincipalId) m }
      { db' with memberships := db'.memberships.insert (actor.organisationId, targetPrincipalId) m } :=
    { h with memberships := by rw [h.memberships] }
  obtain ⟨d, d', hrevoke, hrevoke', hd⟩ := hinserted.revokeSessions ⟨hdb.distinct, hdb.born⟩
    ⟨hdb'.distinct, hdb'.born⟩ (memberSession targetPrincipalId actor.organisationId)
  dsimp only
  rw [hrevoke, hrevoke']
  exact .answered m hd

/-! ## Invitations -/

omit h hdb hdb'

@[simp] theorem settled_tokenHash (i : InvitationRecord) : i.settled.val.tokenHash = i.val.tokenHash := by
  unfold InvitationRecord.settled
  split
  · rfl
  · rfl

@[simp] theorem settled_status (i : InvitationRecord) : i.settled.val.status = i.val.status := by
  unfold InvitationRecord.settled
  split
  · rfl
  · rfl

theorem settled_of_pending {i : InvitationRecord} (h : i.val.status = .pending) : i.settled = i := if_pos h

/-- Invitations that are told apart are settled. -/
theorem eq_or_settled {i i' : InvitationRecord} (h : i.settled = i'.settled) :
    i = i' ∨ i.val.status ≠ .pending ∧ i'.val.status ≠ .pending := by
  have hstatus : i.val.status = i'.val.status := by
    rw [← settled_status i, ← settled_status i', h]
  by_cases hpending : i.val.status = .pending
  · rw [settled_of_pending hpending, settled_of_pending (hstatus ▸ hpending)] at h
    exact Or.inl h
  · exact Or.inr ⟨hpending, hstatus ▸ hpending⟩

theorem map_eq_map_cases {α β : Type} {f : α → β} {x y : Option α} (h : x.map f = y.map f) :
    (x = none ∧ y = none) ∨ ∃ a b, x = some a ∧ y = some b ∧ f a = f b := by
  cases x with
  | none => exact Or.inl ⟨rfl, Option.map_eq_none_iff.mp h.symm⟩
  | some a =>
      obtain ⟨b, rfl, hb⟩ := Option.map_eq_some_iff.mp h.symm
      exact Or.inr ⟨a, b, rfl, rfl, hb.symm⟩

/-- What is looked for by its token is not settled apart. -/
theorem findInvitation_settled (tokenHash : String) :
    (db.findInvitation tokenHash).map (Prod.map id InvitationRecord.settled) =
      ({ db with invitations := db.invitations.map InvitationRecord.settled } : AuthDatabase).findInvitation
        tokenHash := by
  unfold AuthDatabase.findInvitation
  have hindex : (db.invitations.map InvitationRecord.settled).findIdx? (fun i => i.val.tokenHash = tokenHash) =
      db.invitations.findIdx? fun i => i.val.tokenHash = tokenHash := by
    rw [List.findIdx?_map]
    congr 1
    funext i
    simp
  simp only [hindex, List.getElem?_map, Option.map_bind, Option.map_map]
  congr 1
  funext n
  simp only [Function.comp_apply, Option.map_map]
  rfl

include h

theorem ServedAlike.findInvitation (tokenHash : String) :
    (db.findInvitation tokenHash).map (Prod.map id InvitationRecord.settled) =
      (db'.findInvitation tokenHash).map (Prod.map id InvitationRecord.settled) := by
  rw [findInvitation_settled, findInvitation_settled]
  unfold AuthDatabase.findInvitation
  rw [h.invitations]

theorem ServedAlike.setInvitation (n : Nat) (row : InvitationRecord) :
    ServedAlike now { db with invitations := db.invitations.set n row }
      { db' with invitations := db'.invitations.set n row } :=
  { h with invitations := by rw [List.map_set, List.map_set, h.invitations] }

theorem ServedAlike.alreadyMember (organisationId : Nat) (email : String) :
    AuthDatabase.alreadyMember L backend organisationId email db =
      AuthDatabase.alreadyMember L backend organisationId email db' := by
  unfold AuthDatabase.alreadyMember AuthDatabase.activeMembership
  rw [h.principals, h.memberships]

theorem ServedAlike.alreadyPending (organisationId : Nat) (email : String) :
    AuthDatabase.alreadyPending L backend organisationId email db =
      AuthDatabase.alreadyPending L backend organisationId email db' := by
  -- Only pending invitations count, and they keep their addresses.
  have hsettled : ∀ d : AuthDatabase, AuthDatabase.alreadyPending L backend organisationId email d =
      (d.invitations.map InvitationRecord.settled).any fun i => i.val.status = .pending &&
        i.val.organisationId = organisationId && indexedEmail L backend i.val.email = indexedEmail L backend email := by
    intro d
    unfold AuthDatabase.alreadyPending
    rw [List.any_map]
    refine congrArg d.invitations.any (funext fun i => ?_)
    by_cases hpending : i.val.status = .pending
    · rw [Function.comp_apply, settled_of_pending hpending]
    · simp [hpending]
  rw [hsettled, hsettled, h.invitations]

include hdb hdb'

theorem ServedAlike.createInvitation (tokenHash email roleCode : String) :
    SameAnswer now (db.createInvitation L backend tokenHash email roleCode fresh now)
      (db'.createInvitation L backend tokenHash email roleCode fresh now) := by
  have hfound : (db.findInvitation fresh).isSome = (db'.findInvitation fresh).isSome := by
    have hsame := congrArg Option.isSome (h.findInvitation fresh)
    rwa [Option.isSome_map, Option.isSome_map] at hsame
  have hlength : db.invitations.length = db'.invitations.length := by
    have hsame := congrArg List.length h.invitations
    rwa [List.length_map, List.length_map] at hsame
  unfold AuthDatabase.createInvitation
  rw [h.activeActor hdb hdb']
  refine SameAnswer.bind rfl fun actor _ => ?_
  rw [h.alreadyMember, h.alreadyPending, hfound, hlength]
  refine SameAnswer.bind rfl fun _ _ => SameAnswer.bind rfl fun _ _ => SameAnswer.bind rfl fun _ _ =>
    SameAnswer.bind rfl fun _ _ => SameAnswer.bind rfl fun _ _ => SameAnswer.bind rfl fun _ _ => ?_
  cases Role.ofCode? roleCode with
  | none => exact .refused _ _
  | some role =>
      refine SameAnswer.bind rfl fun row _ => .answered _ { h with invitations := ?_ }
      rw [List.map_append, List.map_append, h.invitations]

theorem ServedAlike.acceptInvitation (tokenHash invitationTokenHash : String) :
    SameAnswer now (db.acceptInvitation L backend tokenHash invitationTokenHash now)
      (db'.acceptInvitation L backend tokenHash invitationTokenHash now) := by
  have hfound := h.findInvitation invitationTokenHash
  unfold AuthDatabase.acceptInvitation
  rw [h.caller hdb hdb', h.principals]
  cases db'.caller tokenHash now with
  | none => exact .refused _ _
  | some s =>
      dsimp only
      cases db'.principals[s.principalId]? with
      | none => exact .refused _ _
      | some p =>
          dsimp only
          rcases map_eq_map_cases hfound with ⟨hi, hi'⟩ | ⟨⟨n, i⟩, ⟨n', i'⟩, hi, hi', hsame⟩
          · rw [hi, hi']
            exact .refused _ _
          · obtain ⟨rfl, hsettled⟩ := Prod.mk.inj hsame
            rw [hi, hi']
            dsimp only
            -- A settled invitation is refused, whatever address it has.
            rcases eq_or_settled hsettled with rfl | ⟨hpending, hpending'⟩
            · split
              · exact .refused _ _
              · split
                · exact .refused _ _
                · unfold AuthDatabase.updateInvitation
                  cases storeInvitation { i.val with status := .accepted, acceptedAt := some now } with
                  | error e => exact .refused e e
                  | ok row => exact (h.setInvitation n row).insertMembership _ _ _ _
            · rw [if_pos (Or.inl hpending), if_pos (Or.inl hpending')]
              exact .refused _ _

theorem ServedAlike.revokeInvitation (tokenHash : String) (invitationId : Nat) :
    SameAnswer now (db.revokeInvitation backend tokenHash invitationId now)
      (db'.revokeInvitation backend tokenHash invitationId now) := by
  have hfound : db.invitations[invitationId]?.map InvitationRecord.settled =
      db'.invitations[invitationId]?.map InvitationRecord.settled := by
    rw [← List.getElem?_map, ← List.getElem?_map, h.invitations]
  unfold AuthDatabase.revokeInvitation
  rw [h.activeActor hdb hdb']
  refine SameAnswer.bind rfl fun actor _ => SameAnswer.bind rfl fun _ _ => ?_
  rcases map_eq_map_cases hfound with ⟨hi, hi'⟩ | ⟨i, i', hi, hi', hsettled⟩
  · rw [hi, hi']
    exact .answered false h
  · rw [hi, hi']
    dsimp only
    rcases eq_or_settled hsettled with rfl | ⟨hpending, hpending'⟩
    · split
      · unfold AuthDatabase.updateInvitation
        cases storeInvitation { i.val with status := .revoked, revokedAt := some now } with
        | error e => exact .refused e e
        | ok row => exact .answered true (h.setInvitation invitationId row)
      · exact .answered false h
    · rw [if_neg fun hboth => hpending hboth.2, if_neg fun hboth => hpending' hboth.2]
      exact .answered false h

/-! ## All calls -/

/-- A session that is over is looked up as revoked, one that was purged not at all. -/
theorem ServedAlike.lookupSession (tokenHash : String) :
    ((db.lookupSession backend tokenHash now).filter fun info => !info.isRevoked).map SessionInfo.unnumbered =
      ((db'.lookupSession backend tokenHash now).filter fun info => !info.isRevoked).map SessionInfo.unnumbered := by
  rcases h.token_cases hdb hdb' tokenHash with ⟨i, j, s, hfound, hfound', hlive⟩ | ⟨hnot, hnot'⟩
  · unfold AuthDatabase.lookupSession AuthDatabase.standing
    rw [hfound, hfound', h.principals, h.organisations, h.memberships]
    dsimp only
    cases db'.principals[s.val.principalId]? with
    | none => rfl
    | some p =>
        dsimp only
        by_cases hrevoked : isRevoked s.val p now = true
        · rw [Option.filter_some_neg (by simpa using hrevoked), Option.filter_some_neg (by simpa using hrevoked)]
        · rw [Option.filter_some_pos (by simpa using hrevoked), Option.filter_some_pos (by simpa using hrevoked)]
          rfl
  · rw [hnot.lookupSession, hnot'.lookupSession]

/-- **Every call answers the same on databases that are alike.** -/
theorem ServedAlike.call (hfresh : ∀ s ∈ db.sessions, s.val.sessionTokenHash ≠ fresh)
    (hfresh' : ∀ s ∈ db'.sessions, s.val.sessionTokenHash ≠ fresh) (operation : AuthOperation) :
    SameAnswer now (db.call L backend fresh now operation) (db'.call L backend fresh now operation) := by
  cases operation with
  | createSession principalId activeOrgId => exact h.createSession hfresh hfresh' principalId activeOrgId
  | lookupSession tokenHash =>
      unfold AuthDatabase.call
      dsimp only
      rw [h.lookupSession hdb hdb']
      exact .answered _ h
  | touchSession tokenHash idleWindowSeconds throttleSeconds =>
      exact (h.touchSessionThrottled hdb hdb' tokenHash idleWindowSeconds throttleSeconds).map ServiceAnswer.wrote
  | switchOrganisation tokenHash targetOrgId =>
      exact (h.switchOrganisation hdb hdb' hfresh hfresh' tokenHash targetOrgId).map ServiceAnswer.switched
  | revokeSession tokenHash => exact h.revokeSession hdb hdb' tokenHash
  | revokeAllSessions tokenHash => exact h.revokeAllSessions hdb hdb' tokenHash
  | createOrganisation tokenHash name =>
      exact (h.createOrganisation hdb hdb' tokenHash name).map ServiceAnswer.organisation
  | mutateMembership tokenHash targetPrincipalId newRoleCode newStatus =>
      exact (h.mutateMembership hdb hdb' tokenHash targetPrincipalId newRoleCode newStatus).map ServiceAnswer.membership
  | createInvitation tokenHash email roleCode =>
      exact (h.createInvitation hdb hdb' tokenHash email roleCode).map ServiceAnswer.invitation
  | acceptInvitation tokenHash invitationTokenHash =>
      exact (h.acceptInvitation hdb hdb' tokenHash invitationTokenHash).map fun a => ServiceAnswer.joined a.1 a.2
  | revokeInvitation tokenHash invitationId =>
      exact (h.revokeInvitation hdb hdb' tokenHash invitationId).map ServiceAnswer.wrote

end Pair

end Calls

end AuthDatabase

end Untangle
