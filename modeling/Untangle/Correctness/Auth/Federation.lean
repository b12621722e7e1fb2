import Untangle.Auth.Federation
import Untangle.Correctness.Auth.Oidc

/-!
# `Correctness.Auth.Federation` — one principal for one identity

"If an incoming federated identity claims an email belonging to an existing principal with a different subject/issuer,
login is rejected." It is where the identity is new. One that is known is signed in whatever address it claims, which
becomes its address at the last sign-in. And PostgreSQL stores a subject that ends in blanks beyond 255 characters
without them, so that it is the identity of the shorter subject. In every run that does neither, issuer and subject name
one principal, and no other pair names it (`federation_stable`).
-/

namespace Untangle

open Lib

section Login

variable (lib : OidcLibraries) (backend : Backend)

/-! ## Claims as they are stored -/

/-- The e-mail address of a claim as it is stored. -/
def emailText (email : Json) : Option String :=
  match backend with
  | .postgres => (lib.driverText .postgres email).bind fun text =>
      lib.columnText .postgres (normEmail lib.letters .postgres text)
  | .sqlite =>
    match email with
    | .str text => some (normEmail lib.letters .sqlite text)
    | _ => none

/-- The display name of a claim as it is stored. -/
def nameText (name : Json) : Option String :=
  match backend with
  | .postgres => (lib.driverText .postgres name).bind (lib.columnText .postgres)
  | .sqlite => lib.driverText .sqlite name

/-- The subject of a claim as it is stored. -/
def subjectText (subject : String) : Option String :=
  match backend with
  | .postgres => lib.columnText .postgres subject
  | .sqlite => some subject

/-- A stored address stops a registration. -/
def Collides (norm stored : String) : Prop :=
  match backend with
  | .postgres => lib.letters.postgres stored = norm
  | .sqlite => stored = norm

/-- What the libraries are documented to do: a text is handed over as it is, and lowering an address once more does
    not change it. -/
structure Documented : Prop where
  text : ∀ s t, lib.driverText .postgres (.str s) = some t → t = s
  lowered : ∀ s t, lib.columnText .postgres (normEmail lib.letters .postgres s) = some t → lib.letters.postgres t = t

theorem Documented.collides (h : Documented lib) {email : Json} {norm : String}
    (hemail : emailText lib backend email = some norm) : Collides lib backend norm norm := by
  cases backend with
  | sqlite => rfl
  | postgres =>
      obtain ⟨text, _, hcolumn⟩ := Option.bind_eq_some_iff.mp hemail
      exact h.lowered text norm hcolumn

/-! ## What a sign-in does to the identity tables -/

/-- The identity tables are as they were. -/
structure SameIdentities (db db' : OidcDatabase) : Prop where
  principals : db'.principals = db.principals
  identities : db'.identities = db.identities
  trusted : db'.trustedIssuers = db.trustedIssuers

theorem SameIdentities.refl (db : OidcDatabase) : SameIdentities db db := ⟨rfl, rfl, rfl⟩

theorem SameIdentities.trans {db db' db'' : OidcDatabase} (h : SameIdentities db db') (h' : SameIdentities db' db'') :
    SameIdentities db db'' :=
  ⟨h'.principals.trans h.principals, h'.identities.trans h.identities, h'.trusted.trans h.trusted⟩

theorem SameIdentities.federated {db db' : OidcDatabase} (h : SameIdentities db db') (issuer subject : String) :
    db'.federated issuer subject = db.federated issuer subject := by
  unfold OidcDatabase.federated
  rw [h.principals, h.identities]

/-- A claimed identity is resolved to a principal: the principal of its identity, or a new one. -/
inductive Resolved (mgr : OidcManager) (who : ClaimedIdentity) (db : OidcDatabase) : Nat → OidcDatabase → Prop
  | known {norm name : String} {fed : FederatedIdentity} {p : Principal} {db' : OidcDatabase}
      (hemail : emailText lib backend who.email = some norm) (hname : nameText lib backend who.displayName = some name)
      (htrusted : db.trustedIssuers.get? mgr.issuerUrl = some true)
      (hfed : db.federated mgr.issuerUrl who.subject = some (fed, p)) (hactive : p.isActive = true)
      (hafter : SameIdentities (db.refresh mgr.issuerUrl who.subject norm name fed p) db') :
      Resolved mgr who db fed.principalId db'
  | registered {norm name subject : String} {db' : OidcDatabase}
      (hemail : emailText lib backend who.email = some norm) (hname : nameText lib backend who.displayName = some name)
      (hsubject : subjectText lib backend who.subject = some subject)
      (htrusted : db.trustedIssuers.get? mgr.issuerUrl = some true)
      (hunknown : db.federated mgr.issuerUrl who.subject = none)
      (hunclaimed : db.identities.get? (mgr.issuerUrl, subject) = none)
      (hfree : ∀ p ∈ db.principals, ¬ Collides lib backend norm p.email)
      (hafter : SameIdentities (db.register mgr.issuerUrl subject norm name) db') :
      Resolved mgr who db db.principals.length db'

variable {lib backend} {mgr : OidcManager} {who : ClaimedIdentity} {db db' db'' : OidcDatabase} {n : Nat}

theorem Resolved.before (hsame : SameIdentities db db') (h : Resolved lib backend mgr who db' n db'') :
    Resolved lib backend mgr who db n db'' := by
  have hfederated := hsame.federated mgr.issuerUrl who.subject
  cases h with
  | known hemail hname htrusted hfed hactive hafter =>
      refine .known hemail hname (hsame.trusted ▸ htrusted) (hfederated ▸ hfed) hactive ⟨?_, ?_, ?_⟩
      · rw [hafter.principals, OidcDatabase.refresh, OidcDatabase.refresh, hsame.principals]
      · rw [hafter.identities, OidcDatabase.refresh, OidcDatabase.refresh, hsame.identities]
      · rw [hafter.trusted]
        exact hsame.trusted
  | registered hemail hname hsubject htrusted hunknown hunclaimed hfree hafter =>
      rw [hsame.principals]
      refine .registered hemail hname hsubject (hsame.trusted ▸ htrusted) (hfederated ▸ hunknown)
        (hsame.identities ▸ hunclaimed) (hsame.principals ▸ hfree) ⟨?_, ?_, ?_⟩
      · rw [hafter.principals, OidcDatabase.register, OidcDatabase.register, hsame.principals]
      · rw [hafter.identities, OidcDatabase.register, OidcDatabase.register, hsame.identities, hsame.principals]
      · rw [hafter.trusted]
        exact hsame.trusted

theorem Resolved.after (h : Resolved lib backend mgr who db n db') (hsame : SameIdentities db' db'') :
    Resolved lib backend mgr who db n db'' := by
  cases h with
  | known hemail hname htrusted hfed hactive hafter =>
      exact .known hemail hname htrusted hfed hactive (hafter.trans hsame)
  | registered hemail hname hsubject htrusted hunknown hunclaimed hfree hafter =>
      exact .registered hemail hname hsubject htrusted hunknown hunclaimed hfree (hafter.trans hsame)

/-- **The function of PostgreSQL.** -/
theorem resolveFederatedIdentity_ok (hlib : Documented lib)
    (h : resolveFederatedIdentity lib mgr who db = .ok (n, db')) : Resolved lib .postgres mgr who db n db' := by
  obtain ⟨email, hemail, h⟩ := bind_eq_ok.mp h
  obtain ⟨displayName, hname, h⟩ := bind_eq_ok.mp h
  obtain ⟨subject, hsubject, h⟩ := bind_eq_ok.mp h
  obtain ⟨norm, hnorm, h⟩ := bind_eq_ok.mp h
  obtain ⟨htrusted, h⟩ := bind_unit_eq_ok.mp h
  have htrusted := not_not.mp (refuseIf_eq_ok.mp htrusted)
  obtain rfl : subject = who.subject := hlib.text _ _ (takeText_eq_ok.mp hsubject)
  have hemail : emailText lib .postgres who.email = some norm :=
    Option.bind_eq_some_iff.mpr ⟨email, takeText_eq_ok.mp hemail, takeColumn_eq_ok.mp hnorm⟩
  cases hfed : db.federated mgr.issuerUrl who.subject with
  | some found =>
      obtain ⟨fed, p⟩ := found
      rw [hfed] at h
      obtain ⟨hactive, h⟩ := bind_unit_eq_ok.mp h
      obtain ⟨column, hcolumn, h⟩ := bind_eq_ok.mp h
      cases h
      exact .known hemail
        (Option.bind_eq_some_iff.mpr ⟨displayName, takeText_eq_ok.mp hname, takeColumn_eq_ok.mp hcolumn⟩)
        htrusted hfed (Bool.eq_true_of_not_eq_false (refuseIf_eq_ok.mp hactive)) (.refl _)
  | none =>
      rw [hfed] at h
      obtain ⟨hfree, h⟩ := bind_unit_eq_ok.mp h
      obtain ⟨column, hcolumn, h⟩ := bind_eq_ok.mp h
      obtain ⟨stored, hstored, h⟩ := bind_eq_ok.mp h
      obtain ⟨hunclaimed, h⟩ := bind_unit_eq_ok.mp h
      cases h
      refine .registered hemail
        (Option.bind_eq_some_iff.mpr ⟨displayName, takeText_eq_ok.mp hname, takeColumn_eq_ok.mp hcolumn⟩)
        (takeColumn_eq_ok.mp hstored) htrusted hfed ?_ ?_ (.refl _)
      · exact Option.not_isSome_iff_eq_none.mp (refuseIf_eq_ok.mp hunclaimed)
      · intro p hp hcollides
        exact refuseIf_eq_ok.mp hfree (List.any_eq_true.mpr ⟨p, hp, decide_eq_true hcollides⟩)

/-! ## Sessions -/

/-- Nothing of the identity tables has changed, neither what is committed nor what is worked on. -/
def Untouched (db : OidcDatabase) (s : Held OidcDatabase) : Prop :=
  SameIdentities db s.committed ∧ SameIdentities db s.working

/-- The resolution is worked on, and not committed. -/
def Resolving (lib : OidcLibraries) (backend : Backend) (mgr : OidcManager) (who : ClaimedIdentity) (db : OidcDatabase)
    (n : Nat) (s : Held OidcDatabase) : Prop :=
  SameIdentities db s.committed ∧ Resolved lib backend mgr who db n s.working

/-- A security event is in no identity table, and its details are of a size. -/
theorem recorded_same {event : SecurityEvent} {I : Held OidcDatabase → Prop}
    (hkeeps : ∀ s working, SameIdentities s.working working → I s → I { s with working := working }) :
    Work.Triple I (recordSecurityEvent lib backend event) (fun _ s => I s ∧ Fits lib backend event.details)
      (fun _ => I) := by
  apply Work.Triple.execute
  · intro s a working hs h
    obtain ⟨hfits, h⟩ := bind_unit_eq_ok.mp h
    cases h
    exact ⟨hkeeps s _ ⟨rfl, rfl, rfl⟩ hs, Nat.not_lt.mp (refuseIf_eq_ok.mp hfits)⟩
  · exact fun s e hs _ => hs

theorem untouched_failCommitted {α : Type} {event : SecurityEvent} {e : OidcError} {Q : α → Held OidcDatabase → Prop} :
    Work.Triple (Untouched db) (failCommitted lib backend event e : Work OidcDatabase OidcError α) Q
      (fun _ => Untouched db) := by
  apply Work.Triple.bind
  · exact recorded_same fun s working hsame hs => ⟨hs.1, hs.2.trans hsame⟩
  intro _
  apply Work.Triple.bind (Q := fun _ => Untouched db)
  · exact Work.Triple.commit fun s hs => ⟨hs.1.2, hs.1.2⟩
  · exact fun _ => Work.Triple.raise fun s hs => hs

theorem resolving_postgres (hlib : Documented lib) :
    Work.Triple (Untouched db) (resolvePostgres lib backend mgr who)
      (fun n => Resolving lib .postgres mgr who db n) (fun _ => Untouched db) := by
  apply Work.Triple.handle (fun _ => Untouched db)
  · apply Work.Triple.execute
    · intro s n working hs h
      exact ⟨hs.1, (resolveFederatedIdentity_ok hlib h).before hs.2⟩
    · exact fun s e hs _ => hs
  · intro e
    apply Work.Triple.bind (Q := fun _ => Untouched db)
    · exact Work.Triple.rollback fun s hs => ⟨hs.1, hs.1⟩
    intro _
    dsimp only
    split
    · split
      · exact untouched_failCommitted
      · exact Work.Triple.raise fun s hs => hs
    · exact Work.Triple.raise fun s hs => hs

theorem resolving_sqlite :
    Work.Triple (Untouched db) (resolveSqlite lib backend mgr who)
      (fun n => Resolving lib .sqlite mgr who db n) (fun _ => Untouched db) := by
  apply Work.Triple.bind (Q := fun email s => Untouched db s ∧ who.email = .str email)
  · apply Work.Triple.lift
    · intro email h s hs
      refine ⟨hs, ?_⟩
      unfold textOf at h
      split at h
      · rename_i text hemail
        cases h
        exact hemail
      · cases h
    · exact fun e _ s hs => hs
  intro email
  apply Work.Triple.bind (Q := fun seen s => (Untouched db s ∧ who.email = .str email) ∧ seen = s.working)
  · exact Work.Triple.read fun s hs => ⟨hs, rfl⟩
  intro seen
  apply Work.Triple.bind (Q := fun _ s => ((Untouched db s ∧ who.email = .str email) ∧ seen = s.working) ∧
    seen.trustedIssuers.get? mgr.issuerUrl = some true)
  · apply Work.Triple.lift
    · exact fun _ h s hs => ⟨hs, not_not.mp (refuseIf_eq_ok.mp h)⟩
    · exact fun e _ s hs => hs.1.1
  intro _
  -- the statement works on what was read
  have hwrite : ∀ (answer : OidcDatabase → Nat) (write : String → OidcDatabase → OidcDatabase)
      (_ : ∀ name norm, emailText lib .sqlite who.email = some norm → nameText lib .sqlite who.displayName = some name →
        seen.trustedIssuers.get? mgr.issuerUrl = some true → norm = normEmail lib.letters .sqlite email →
        Resolved lib .sqlite mgr who seen (answer seen) (write name seen)),
      Work.Triple (fun s => ((Untouched db s ∧ who.email = .str email) ∧ seen = s.working) ∧
          seen.trustedIssuers.get? mgr.issuerUrl = some true)
        (Work.execute fun db => do
          let displayName ← takeText lib .sqlite who.displayName
          return (answer db, write displayName db))
        (fun n => Resolving lib .sqlite mgr who db n) (fun _ => Untouched db) := by
    intro answer write hresolved
    apply Work.Triple.execute
    · rintro s n working ⟨⟨⟨hs, hemail⟩, rfl⟩, htrusted⟩ h
      obtain ⟨name, hname, h⟩ := bind_eq_ok.mp h
      cases h
      have hnorm : emailText lib .sqlite who.email = some (normEmail lib.letters .sqlite email) := by
        rw [hemail]
        rfl
      exact ⟨hs.1, (hresolved name _ hnorm (takeText_eq_ok.mp hname) htrusted rfl).before hs.2⟩
    · exact fun s e hs _ => hs.1.1.1
  have hraise : ∀ (e : OidcError) (P : Held OidcDatabase → Prop), (∀ s, P s → Untouched db s) →
      Work.Triple P (Work.raise e : Work OidcDatabase OidcError Nat) (fun n => Resolving lib .sqlite mgr who db n)
        (fun _ => Untouched db) := fun e P h => Work.Triple.raise fun s hs => h s hs
  cases hfed : seen.identities.get? (mgr.issuerUrl, who.subject) with
  | some fed =>
      dsimp only
      cases hp : seen.principals[fed.principalId]?.filter Principal.isActive with
      | none => exact hraise _ _ fun s hs => hs.1.1.1
      | some p =>
          obtain ⟨hp, hactive⟩ := Option.filter_eq_some_iff.mp hp
          apply hwrite (fun _ => fed.principalId) fun name db => db.refresh _ _ _ name _ _
          rintro name norm hemail hname htrusted rfl
          refine .known hemail hname htrusted ?_ hactive (.refl _)
          rw [OidcDatabase.federated, hfed, Option.bind_some, hp]
          rfl
  | none =>
      dsimp only
      by_cases htaken : (seen.principals.any fun p => p.email = normEmail lib.letters .sqlite email) = true
      · rw [if_pos htaken]
        exact untouched_failCommitted.consequence (fun s hs => hs.1.1.1) (fun _ _ hs => hs) fun _ _ hs => hs
      · rw [if_neg htaken]
        apply hwrite (fun db => db.principals.length) fun name db => db.register _ _ _ name
        rintro name norm hemail hname htrusted rfl
        refine .registered hemail hname rfl htrusted ?_ hfed ?_ (.refl _)
        · rw [OidcDatabase.federated, hfed]
          rfl
        · intro p hp hcollides
          exact htaken (List.any_eq_true.mpr ⟨p, hp, decide_eq_true hcollides⟩)

theorem resolving (hlib : Documented lib) (backend : Backend) :
    Work.Triple (Untouched db) (resolveIdentity lib backend mgr who)
      (fun n => Resolving lib backend mgr who db n) (fun _ => Untouched db) := by
  cases backend with
  | postgres => exact resolving_postgres hlib
  | sqlite => exact resolving_sqlite

/-! ## One sign-in -/

/-- What a sign-in answers, and what it leaves. -/
inductive SignedIn (lib : OidcLibraries) (backend : Backend) (mgr : OidcManager) (tx : OidcAuthTransaction)
    (claims : Json) (db : OidcDatabase) : Except OidcError (Nat × String) → OidcDatabase → Prop
  | refused {e : OidcError} {db' : OidcDatabase} (hsame : SameIdentities db db') :
      SignedIn lib backend mgr tx claims db (.error e) db'
  | resolved {who : ClaimedIdentity} {n : Nat} {returnTo : String} {db' : OidcDatabase}
      (hverified : verifyClaims lib mgr tx.nonceHash claims = .ok ())
      (hemail : jsonTruth (claims.get "email_verified") = true) (hwho : claimedIdentity claims = .ok who)
      (hfits : Fits lib backend [("issuer", .str mgr.issuerUrl), ("email", who.email)])
      (hresolved : Resolved lib backend mgr who db n db') :
      SignedIn lib backend mgr tx claims db (.ok (n, returnTo)) db'

/-- **A sign-in either is refused, and leaves the identity tables as they are, or resolves its identity.** -/
theorem signedIn (hlib : Documented lib) (backend : Backend) (mgr : OidcManager) (tx : OidcAuthTransaction)
    (claims : Json) (db : OidcDatabase) :
    SignedIn lib backend mgr tx claims db (db.login lib backend mgr tx claims).1
      (db.login lib backend mgr tx claims).2 := by
  apply Work.Triple.close
  have hstart : ∀ s : Held OidcDatabase, s = ⟨db, db⟩ → Untouched db s := by
    rintro s rfl
    exact ⟨.refl db, .refl db⟩
  have hrefused : ∀ (e : OidcError) (s : Held OidcDatabase), SameIdentities db s.committed →
      SignedIn lib backend mgr tx claims db (.error e) s.committed := fun e s hs => .refused hs
  apply Work.Triple.consequence _ hstart (fun _ _ hs => hs) hrefused
  apply Work.Triple.bind (Q := fun _ s => Untouched db s ∧ verifyClaims lib mgr tx.nonceHash claims = .ok ())
  · exact Work.Triple.lift (fun _ h s hs => ⟨hs, h⟩) fun e _ s hs => hs.1
  intro _
  apply Work.Triple.bind (Q := fun _ s => (Untouched db s ∧ verifyClaims lib mgr tx.nonceHash claims = .ok ()) ∧
    jsonTruth (claims.get "email_verified") = true)
  · apply Work.Triple.whenever
    · intro _
      exact untouched_failCommitted.consequence (fun s hs => hs.1) (fun _ _ hs => hs) fun _ _ hs => hs.1
    · exact fun h s hs => ⟨hs, Bool.eq_true_of_not_eq_false h⟩
  intro _
  apply Work.Triple.bind (Q := fun who s => ((Untouched db s ∧ verifyClaims lib mgr tx.nonceHash claims = .ok ()) ∧
    jsonTruth (claims.get "email_verified") = true) ∧ claimedIdentity claims = .ok who)
  · exact Work.Triple.lift (fun who h s hs => ⟨hs, h⟩) fun e _ s hs => hs.1.1.1
  -- the rest is about the session
  intro who s hs
  obtain ⟨⟨⟨huntouched, hverified⟩, hemail⟩, hwho⟩ := hs
  revert s
  show Work.Triple (Untouched db) _ _ _
  apply Work.Triple.bind ((resolving hlib backend).consequence (fun s hs => hs) (fun _ _ hs => hs) fun _ _ hs => hs.1)
  intro n
  apply Work.Triple.bind (Q := fun _ s => Resolving lib backend mgr who db n s ∧
    Fits lib backend [("issuer", .str mgr.issuerUrl), ("email", who.email)])
  · exact (recorded_same fun s working hsame hs => ⟨hs.1, hs.2.after hsame⟩).consequence (fun s hs => hs)
      (fun _ _ hs => hs) fun e s hs => hs.1
  intro _
  apply Work.Triple.bind (Q := fun _ s => Resolved lib backend mgr who db n s.committed ∧
    Fits lib backend [("issuer", .str mgr.issuerUrl), ("email", who.email)])
  · exact Work.Triple.commit fun s hs => ⟨hs.1.2, hs.2⟩
  intro _
  exact Work.Triple.pure fun s hs => .resolved hverified hemail hwho hs.2 hs.1

/-! ## The tables over a run -/

/-- Every identity has a principal of its own. -/
structure OneEach (db : OidcDatabase) : Prop where
  bound : ∀ key fed, db.identities.get? key = some fed → fed.principalId < db.principals.length
  injective : ∀ key key' fed fed', db.identities.get? key = some fed → db.identities.get? key' = some fed' →
    fed.principalId = fed'.principalId → key = key'

/-- A resolution is in the table of identities. -/
def Recorded (db : OidcDatabase) (r : Resolution) : Prop :=
  ∃ fed, db.identities.get? (r.issuer, r.subject) = some fed ∧ fed.principalId = r.principalId

theorem federated_eq_some {issuer subject : String} {fed : FederatedIdentity} {p : Principal} :
    db.federated issuer subject = some (fed, p) ↔
      db.identities.get? (issuer, subject) = some fed ∧ db.principals[fed.principalId]? = some p := by
  unfold OidcDatabase.federated
  rw [Option.bind_eq_some_iff]
  constructor
  · rintro ⟨fed', hfed, h⟩
    obtain ⟨p', hp, h⟩ := Option.map_eq_some_iff.mp h
    cases h
    exact ⟨hfed, hp⟩
  · rintro ⟨hfed, hp⟩
    exact ⟨fed, hfed, by rw [hp]; rfl⟩

theorem OneEach.same (h : OneEach db) (hlength : db'.principals.length = db.principals.length)
    (hidentities : db'.identities = db.identities) : OneEach db' where
  bound := by
    rw [hlength, hidentities]
    exact h.bound
  injective := by
    rw [hidentities]
    exact h.injective

theorem Resolved.oneEach (hdb : OneEach db) (h : Resolved lib backend mgr who db n db') : OneEach db' := by
  cases h with
  | @known norm name fed p _ _ _ _ hfed _ hafter =>
      obtain ⟨hget, _⟩ := federated_eq_some.mp hfed
      have hlength : db'.principals.length = db.principals.length := by
        rw [hafter.principals]
        exact List.length_set
      -- the identity that is written has the principal it had
      have hold : ∀ key fed', db'.identities.get? key = some fed' →
          ∃ old, db.identities.get? key = some old ∧ old.principalId = fed'.principalId := by
        intro key fed' hkey
        rw [hafter.identities, OidcDatabase.refresh, Dict.get?_insert] at hkey
        split_ifs at hkey with heq
        · cases hkey
          exact ⟨fed, heq ▸ hget, rfl⟩
        · exact ⟨fed', hkey, rfl⟩
      refine ⟨?_, ?_⟩
      · intro key fed' hkey
        obtain ⟨old, hkey, hid⟩ := hold key fed' hkey
        rw [hlength, ← hid]
        exact hdb.bound key old hkey
      · intro key key' fed₁ fed₂ hkey hkey' heq
        obtain ⟨old, hkey, hid⟩ := hold key fed₁ hkey
        obtain ⟨old', hkey', hid'⟩ := hold key' fed₂ hkey'
        exact hdb.injective key key' old old' hkey hkey' (by rw [hid, hid', heq])
  | @registered norm name subject _ _ _ _ _ _ _ _ hafter =>
      have hlength : db'.principals.length = db.principals.length + 1 := by
        rw [hafter.principals]
        exact List.length_append
      -- every other identity has an older principal than the new one
      have hold : ∀ key fed', db'.identities.get? key = some fed' →
          key = (mgr.issuerUrl, subject) ∧ fed'.principalId = db.principals.length ∨
            db.identities.get? key = some fed' ∧ fed'.principalId < db.principals.length := by
        intro key fed' hkey
        rw [hafter.identities, OidcDatabase.register, Dict.get?_insert] at hkey
        split_ifs at hkey with heq
        · cases hkey
          exact Or.inl ⟨heq, rfl⟩
        · exact Or.inr ⟨hkey, hdb.bound key fed' hkey⟩
      refine ⟨?_, ?_⟩
      · intro key fed' hkey
        rcases hold key fed' hkey with ⟨_, hid⟩ | ⟨_, hid⟩ <;> omega
      · intro key key' fed₁ fed₂ hkey hkey' heq
        rcases hold key fed₁ hkey with ⟨hnew, hid⟩ | ⟨hkey, hid⟩
        · rcases hold key' fed₂ hkey' with ⟨hnew', _⟩ | ⟨_, hid'⟩
          · rw [hnew, hnew']
          · omega
        · rcases hold key' fed₂ hkey' with ⟨_, hid'⟩ | ⟨hkey', _⟩
          · omega
          · exact hdb.injective key key' fed₁ fed₂ hkey hkey' heq

theorem Resolved.keeps {r : Resolution} (hr : Recorded db r) (h : Resolved lib backend mgr who db n db') :
    Recorded db' r := by
  obtain ⟨fed', hget', hid⟩ := hr
  cases h with
  | @known norm name fed p _ _ _ _ hfed _ hafter =>
      obtain ⟨hget, _⟩ := federated_eq_some.mp hfed
      unfold Recorded
      rw [hafter.identities, OidcDatabase.refresh, Dict.get?_insert]
      split_ifs with heq
      · rw [heq, hget] at hget'
        cases hget'
        exact ⟨_, rfl, hid⟩
      · exact ⟨fed', hget', hid⟩
  | @registered norm name subject _ _ _ _ _ _ hunclaimed _ hafter =>
      unfold Recorded
      rw [hafter.identities, OidcDatabase.register, Dict.get?_insert]
      split_ifs with heq
      · rw [heq, hunclaimed] at hget'
        cases hget'
      · exact ⟨fed', hget', hid⟩

/-! ## Which sign-ins are disputed -/

variable (lib backend) in
/-- Everything that a sign-in asks of its claims and of the libraries. -/
structure Admitted (mgr : OidcManager) (tx : OidcAuthTransaction) (claims : Json) (who : ClaimedIdentity)
    (norm name : String) : Prop where
  verified : verifyClaims lib mgr tx.nonceHash claims = .ok ()
  emailVerified : jsonTruth (claims.get "email_verified") = true
  claimed : claimedIdentity claims = .ok who
  fits : Fits lib backend [("issuer", .str mgr.issuerUrl), ("email", who.email)]
  email : emailText lib backend who.email = some norm
  name : nameText lib backend who.displayName = some name

variable (lib backend) in
/-- A sign-in that its issuer's trust and its claims admit is not that of a known, active identity with the address of
    another principal, and not the registration of a subject that is stored as another one. -/
structure LoginUndisputed (db : OidcDatabase) (mgr : OidcManager) (tx : OidcAuthTransaction) (claims : Json) : Prop where
  own_address : ∀ who norm name, Admitted lib backend mgr tx claims who norm name →
    db.trustedIssuers.get? mgr.issuerUrl = some true →
    ∀ fed p, db.federated mgr.issuerUrl who.subject = some (fed, p) → p.isActive = true →
      ∀ m q, db.principals[m]? = some q → q.email = norm → m = fed.principalId
  whole_subject : ∀ who norm name, Admitted lib backend mgr tx claims who norm name →
    db.trustedIssuers.get? mgr.issuerUrl = some true →
    ∀ subject, db.federated mgr.issuerUrl who.subject = none → subjectText lib backend who.subject = some subject →
      db.identities.get? (mgr.issuerUrl, subject) = none → (∀ p ∈ db.principals, ¬ Collides lib backend norm p.email) →
        subject = who.subject

variable (lib backend) in
def UndisputedAction (db : OidcDatabase) : FederationAction → Prop
  | .login mgr tx claims => LoginUndisputed lib backend db mgr tx claims
  | _ => True

variable (lib backend) in
/-- A sign-in with the address of a principal that is not the one of its identity is refused and changes no identity
    table, and no deactivated principal is answered. -/
structure LoginStable (db : OidcDatabase) (mgr : OidcManager) (tx : OidcAuthTransaction) (claims : Json) : Prop where
  refused : ∀ who norm m q, claimedIdentity claims = .ok who → emailText lib backend who.email = some norm →
    db.principals[m]? = some q → q.email = norm →
    (∀ fed, db.identities.get? (mgr.issuerUrl, who.subject) = some fed → fed.principalId ≠ m) →
      (∃ e, (db.login lib backend mgr tx claims).1 = .error e) ∧
        SameIdentities db (db.login lib backend mgr tx claims).2
  active : ∀ n returnTo, (db.login lib backend mgr tx claims).1 = .ok (n, returnTo) →
    ∀ p, db.principals[n]? = some p → p.isActive = true

variable (lib backend) in
def ActionStable (db : OidcDatabase) : FederationAction → Prop
  | .login mgr tx claims => LoginStable lib backend db mgr tx claims
  | _ => True

variable (lib backend) in
/-- **Identities are stable and never merged.** -/
structure FederationStable (db : OidcDatabase) (actions : List FederationAction) : Prop where
  one_each : ∀ r ∈ resolutions lib backend db actions, ∀ r' ∈ resolutions lib backend db actions,
    r.issuer = r'.issuer ∧ r.subject = r'.subject ↔ r.principalId = r'.principalId
  logins : Meets (OidcDatabase.federate lib backend) (ActionStable lib backend) db actions

variable {tx : OidcAuthTransaction} {claims : Json}

theorem LoginUndisputed.stable (hlib : Documented lib) (h : LoginUndisputed lib backend db mgr tx claims) :
    LoginStable lib backend db mgr tx claims := by
  have hsigned := signedIn hlib backend mgr tx claims db
  refine ⟨?_, ?_⟩
  · intro who norm m q hwho hnorm hq hqemail hother
    generalize (db.login lib backend mgr tx claims).1 = answer, (db.login lib backend mgr tx claims).2 = db' at hsigned ⊢
    cases hsigned with
    | @refused e _ hsame => exact ⟨⟨e, rfl⟩, hsame⟩
    | @resolved who' n returnTo _ hverified hemail hwho' hfits hresolved =>
        obtain rfl : who = who' := Except.ok.inj (hwho.symm.trans hwho')
        exfalso
        cases hresolved with
        | @known norm' name fed p _ hemail' hname htrusted hfed hactive _ =>
            obtain rfl : norm = norm' := Option.some.inj (hnorm.symm.trans hemail')
            have hadmitted : Admitted lib backend mgr tx claims who norm name :=
              ⟨hverified, hemail, hwho, hfits, hnorm, hname⟩
            have hown := h.own_address who norm name hadmitted htrusted fed p hfed hactive m q hq hqemail
            exact hother fed (federated_eq_some.mp hfed).1 hown.symm
        | @registered norm' name subject _ hemail' _ _ _ _ _ hfree _ =>
            obtain rfl : norm = norm' := Option.some.inj (hnorm.symm.trans hemail')
            apply hfree q (List.mem_of_getElem? hq)
            rw [hqemail]
            exact hlib.collides lib backend hnorm
  · intro n returnTo hanswer p hp
    generalize (db.login lib backend mgr tx claims).2 = db' at hsigned
    rw [hanswer] at hsigned
    cases hsigned with
    | resolved _ _ _ _ hresolved =>
        cases hresolved with
        | known _ _ _ hfed hactive _ =>
            rw [(federated_eq_some.mp hfed).2] at hp
            cases hp
            exact hactive
        | registered _ _ _ _ _ _ _ _ =>
            rw [List.getElem?_eq_none le_rfl] at hp
            cases hp

/-! ## Steps and runs -/

theorem federate_oneEach (hlib : Documented lib) (hdb : OneEach db) (action : FederationAction) :
    OneEach (db.federate lib backend action) := by
  cases action with
  | setActive principalId isActive => exact hdb.same (List.length_modify _ _ _) rfl
  | setTrusted issuer isActive => exact hdb.same rfl rfl
  | login mgr tx claims =>
      have hsigned := signedIn hlib backend mgr tx claims db
      show OneEach (db.login lib backend mgr tx claims).2
      generalize (db.login lib backend mgr tx claims).1 = answer, (db.login lib backend mgr tx claims).2 = db' at hsigned ⊢
      cases hsigned with
      | refused hsame => exact hdb.same (congrArg List.length hsame.principals) hsame.identities
      | resolved _ _ _ _ hresolved => exact hresolved.oneEach hdb

theorem federate_recorded (hlib : Documented lib) {r : Resolution} (hr : Recorded db r) (action : FederationAction) :
    Recorded (db.federate lib backend action) r := by
  cases action with
  | setActive principalId isActive => exact hr
  | setTrusted issuer isActive => exact hr
  | login mgr tx claims =>
      have hsigned := signedIn hlib backend mgr tx claims db
      show Recorded (db.login lib backend mgr tx claims).2 r
      generalize (db.login lib backend mgr tx claims).1 = answer, (db.login lib backend mgr tx claims).2 = db' at hsigned ⊢
      cases hsigned with
      | refused hsame =>
          unfold Recorded
          rw [hsame.identities]
          exact hr
      | resolved _ _ _ _ hresolved => exact hresolved.keeps hr

/-- What a step resolves is in the table after it. -/
theorem resolution_recorded (hlib : Documented lib) {action : FederationAction}
    (h : UndisputedAction lib backend db action) {r : Resolution} (hr : db.resolution lib backend action = some r) :
    Recorded (db.federate lib backend action) r := by
  cases action with
  | setActive principalId isActive => cases hr
  | setTrusted issuer isActive => cases hr
  | login mgr tx claims =>
      have hsigned := signedIn hlib backend mgr tx claims db
      show Recorded (db.login lib backend mgr tx claims).2 r
      unfold OidcDatabase.resolution at hr
      dsimp only at hr
      generalize (db.login lib backend mgr tx claims).1 = answer, (db.login lib backend mgr tx claims).2 = db'
        at hsigned hr ⊢
      cases hsigned with
      | refused hsame =>
          split at hr
          · rename_i hanswer
            cases hanswer
          · cases hr
      | @resolved who n returnTo _ hverified hemail hwho hfits hresolved =>
          rw [hwho] at hr
          cases hr
          cases hresolved with
          | @known norm name fed p _ _ _ _ hfed _ hafter =>
              refine ⟨{ fed with emailAtAuth := norm }, ?_, rfl⟩
              rw [hafter.identities, OidcDatabase.refresh, Dict.get?_insert, if_pos rfl]
          | @registered norm name subject _ hnorm hname hsubject htrusted hunknown hunclaimed hfree hafter =>
              have hwhole := h.whole_subject who norm name ⟨hverified, hemail, hwho, hfits, hnorm, hname⟩ htrusted
                subject hunknown hsubject hunclaimed hfree
              refine ⟨{ principalId := db.principals.length, emailAtAuth := norm }, ?_, rfl⟩
              rw [hafter.identities, OidcDatabase.register, hwhole, Dict.get?_insert, if_pos rfl]

theorem resolutions_recorded (hlib : Documented lib) {actions : List FederationAction}
    (h : Meets (OidcDatabase.federate lib backend) (UndisputedAction lib backend) db actions) :
    ∀ r ∈ resolutions lib backend db actions, Recorded (run (OidcDatabase.federate lib backend) db actions) r := by
  induction actions generalizing db with
  | nil => exact fun r hr => absurd hr List.not_mem_nil
  | cons action actions ih =>
      intro r hr
      rw [resolutions, List.mem_append, Option.mem_toList] at hr
      rcases hr with hr | hr
      · exact run_keeps _ (I := fun db => Recorded db r) (fun db action hrecorded => federate_recorded hlib hrecorded action)
          (resolution_recorded hlib h.1 hr) actions
      · exact ih h.2 r hr

/-- Two resolutions in a table name one principal exactly if they name one identity. -/
theorem OneEach.recorded_iff (hdb : OneEach db) {r r' : Resolution} (hr : Recorded db r) (hr' : Recorded db r') :
    r.issuer = r'.issuer ∧ r.subject = r'.subject ↔ r.principalId = r'.principalId := by
  obtain ⟨fed, hfed, hid⟩ := hr
  obtain ⟨fed', hfed', hid'⟩ := hr'
  rw [← Prod.mk.injEq, ← hid, ← hid']
  constructor
  · intro hkey
    rw [hkey, hfed'] at hfed
    cases hfed
    rfl
  · exact hdb.injective _ _ fed fed' hfed hfed'

/-- **One principal for one identity**, in every run of sign-ins none of which is disputed. -/
theorem federation_stable (lib : OidcLibraries) (hlib : Documented lib) (backend : Backend) (db : OidcDatabase)
    (hdb : OneEach db) (actions : List FederationAction)
    (h : Meets (OidcDatabase.federate lib backend) (UndisputedAction lib backend) db actions) :
    FederationStable lib backend db actions where
  one_each := by
    intro r hr r' hr'
    have hafter : OneEach (run (OidcDatabase.federate lib backend) db actions) :=
      run_keeps _ (I := OneEach) (fun db action hdb => federate_oneEach hlib hdb action) hdb actions
    exact hafter.recorded_iff (resolutions_recorded hlib h r hr) (resolutions_recorded hlib h r' hr')
  logins := by
    apply meets_mono _ _ h
    intro db action hundisputed
    cases action with
    | login mgr tx claims => exact hundisputed.stable hlib
    | setActive principalId isActive => trivial
    | setTrusted issuer isActive => trivial

end Login

/-! ## Examples -/

def trusting : OidcDatabase where
  trustedIssuers := Dict.empty.insert "https://idp" true

def claimsOf (subject email : String) : Json :=
  .obj [("iss", .str "https://idp"), ("aud", .str "untangle"), ("nonce", .str "nonce"),
    ("email_verified", .bool true), ("email", .str email), ("sub", .str subject)]

def loginOf (subject email : String) : FederationAction :=
  .login exampleManager ⟨"nonce", "verifier", "/", 600, none⟩ (claimsOf subject email)

/-- A database that stores a text of more than 255 characters without the blanks that it ends in, if that is enough. -/
def cuttingLibraries : OidcLibraries :=
  { plainLibraries with
    columnText := fun _ text =>
      if text.length ≤ 255 then some text
      else if (text.toList.drop 255).all fun c => c = ' ' then some (String.ofList (text.toList.take 255))
      else none }

theorem plainLibraries_documented : Documented plainLibraries := by
  refine ⟨?_, ?_⟩
  · intro s t h
    cases h
    rfl
  · exact fun s t h => rfl

/-- A sign-in that is answered with one principal, though its address is that of another. -/
theorem not_stable_of_answered {db : OidcDatabase} {mgr : OidcManager} {tx : OidcAuthTransaction} {claims : Json}
    {who : ClaimedIdentity} {norm : String} {n m : Nat} (hwho : claimedIdentity claims = .ok who)
    (hnorm : emailText lib backend who.email = some norm)
    (hother : db.principals[m]?.map Principal.email = some norm)
    (hown : (db.identities.get? (mgr.issuerUrl, who.subject)).map FederatedIdentity.principalId = some n) (hne : n ≠ m)
    (hanswered : (db.login lib backend mgr tx claims).1.toOption.isSome = true) :
    ¬ LoginStable lib backend db mgr tx claims := by
  intro h
  obtain ⟨q, hq, hqemail⟩ := Option.map_eq_some_iff.mp hother
  obtain ⟨⟨e, he⟩, _⟩ := h.refused who norm m q hwho hnorm hq hqemail fun fed hfed => by
    rw [hfed, Option.map_some, Option.some.injEq] at hown
    rw [hown]
    exact hne
  rw [he] at hanswered
  cases hanswered

/-- A subject that fills its column, and the same with a blank too many. -/
def fullSubject : String := String.ofList (List.replicate 255 'a')

def blankSubject : String := String.ofList (List.replicate 255 'a' ++ [' '])

/-- A text that fills its column is stored as it is, and so is the text with a blank behind it. -/
theorem columnText_full {cs : List Char} (hcs : cs.length = 255) (backend : Backend) :
    cuttingLibraries.columnText backend (String.ofList cs) = some (String.ofList cs) ∧
      cuttingLibraries.columnText backend (String.ofList (cs ++ [' '])) = some (String.ofList cs) := by
  constructor
  · show (if (String.ofList cs).length ≤ 255 then some (String.ofList cs) else _) = _
    rw [String.length_ofList, if_pos (Nat.le_of_eq hcs)]
  · show (if (String.ofList (cs ++ [' '])).length ≤ 255 then _ else
      if ((String.ofList (cs ++ [' '])).toList.drop 255).all fun c => c = ' ' then
        some (String.ofList ((String.ofList (cs ++ [' '])).toList.take 255))
      else none) = _
    rw [String.length_ofList, List.length_append, hcs, if_neg (by decide), String.toList_ofList, List.drop_left' hcs,
      List.take_left' hcs]
    rfl

/-- Both subjects are stored as the first of them. -/
theorem cuttingLibraries_eq : cuttingLibraries =
    { cuttingLibraries with
      columnText := fun backend text =>
        if text = fullSubject ∨ text = blankSubject then some fullSubject
        else cuttingLibraries.columnText backend text } := by
  have hcolumn : cuttingLibraries.columnText = fun backend text =>
      if text = fullSubject ∨ text = blankSubject then some fullSubject
      else cuttingLibraries.columnText backend text := by
    funext backend text
    obtain ⟨hfull, hblank⟩ := columnText_full (List.length_replicate (n := 255) (a := 'a')) backend
    split
    · rename_i h
      rcases h with h | h
      · rw [h]
        exact hfull
      · rw [h]
        exact hblank
    · rfl
  exact congrArg (fun column => { cuttingLibraries with columnText := column }) hcolumn

/-- Alice signs in with the address of Bob, on either back end, and PostgreSQL takes a subject with a blank too many for
    the subject without it. -/
theorem known_takes_address :
    ¬ FederationStable plainLibraries .postgres trusting
        [loginOf "alice" "a@b.c", loginOf "bob" "b@b.c", loginOf "alice" "b@b.c"] ∧
      ¬ FederationStable plainLibraries .sqlite trusting
        [loginOf "alice" "a@b.c", loginOf "bob" "b@b.c", loginOf "alice" "b@b.c"] ∧
      ¬ FederationStable cuttingLibraries .postgres trusting
        [loginOf (String.ofList (List.replicate 255 'a' ++ [' '])) "a@b.c",
          loginOf (String.ofList (List.replicate 255 'a')) "b@b.c"] := by
  refine ⟨?_, ?_, ?_⟩
  · intro h
    exact not_stable_of_answered (n := 0) (m := 1) rfl rfl (by decide +kernel) (by decide +kernel) (by decide)
      (by decide +kernel) h.logins.2.2.1
  · intro h
    exact not_stable_of_answered (n := 0) (m := 1) rfl rfl (by decide +kernel) (by decide +kernel) (by decide)
      (by decide +kernel) h.logins.2.2.1
  · intro h
    have hresolved : resolutions cuttingLibraries .postgres trusting
        [loginOf (String.ofList (List.replicate 255 'a' ++ [' '])) "a@b.c",
          loginOf (String.ofList (List.replicate 255 'a')) "b@b.c"] =
        [⟨"https://idp", String.ofList (List.replicate 255 'a' ++ [' ']), 0⟩,
          ⟨"https://idp", String.ofList (List.replicate 255 'a'), 0⟩] := by
      rw [cuttingLibraries_eq]
      decide +kernel
    have hone := h.one_each
    rw [hresolved] at hone
    have hmerged := (hone _ List.mem_cons_self _ (List.mem_cons_of_mem _ List.mem_cons_self)).mpr rfl
    exact absurd hmerged.2 (by decide +kernel)

/-- With one principal at most, and a column that takes a text as it is or not at all, no sign-in is disputed. -/
theorem undisputed_of_single (backend : Backend) {db : OidcDatabase} {mgr : OidcManager} {tx : OidcAuthTransaction}
    {claims : Json} (hlength : db.principals.length ≤ 1) :
    LoginUndisputed plainLibraries backend db mgr tx claims := by
  refine ⟨?_, ?_⟩
  · intro _ _ _ _ _ fed p hfed _ m q hq _
    obtain ⟨hown, _⟩ := List.getElem?_eq_some_iff.mp (federated_eq_some.mp hfed).2
    obtain ⟨hm, _⟩ := List.getElem?_eq_some_iff.mp hq
    omega
  · intro who _ _ _ _ subject _ hsubject _ _
    cases backend with
    | sqlite => exact (Option.some.inj hsubject).symm
    | postgres =>
        change (if who.subject.length ≤ 255 then some who.subject else none) = some subject at hsubject
        split_ifs at hsubject
        exact (Option.some.inj hsubject).symm

/-- The hypotheses of `federation_stable` hold of a sign-in before and after a deactivation, and of a subject that is
    256 characters long. -/
theorem federation_stable_deactivated :
    FederationStable plainLibraries .postgres trusting
      [loginOf "alice" "a@b.c", .setActive 0 false, loginOf "alice" "c@b.c",
        loginOf (String.ofList (List.replicate 256 'a')) "d@b.c"] := by
  apply federation_stable plainLibraries plainLibraries_documented .postgres trusting
  · refine ⟨?_, ?_⟩
    · intro key fed h
      cases h
    · intro key key' fed fed' h
      cases h
  · exact ⟨undisputed_of_single .postgres (by decide +kernel), trivial,
      undisputed_of_single .postgres (by decide +kernel), undisputed_of_single .postgres (by decide +kernel), trivial⟩

end Untangle
