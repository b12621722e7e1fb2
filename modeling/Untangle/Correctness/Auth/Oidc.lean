import Untangle.Auth.Oidc
import Untangle.Correctness.Auth.Acceptance
import Untangle.Lib.Runs

/-!
# `Correctness.Auth.Oidc` — when the state of a sign-in is used once

A call whose state is open consumes it in its own transaction, and some of the exits after that raise without a commit:
the state is then open again. A state is used once in every run in which the calls that consume it end at an exit that
commits (`consumedOnce_of_committed`).
-/

namespace Untangle

open Lib

section Callback

variable {lib : OidcLibraries} {backend : Backend} {mgr : OidcManager}

/-! ## What the pure steps raise -/

/-- Not an error of the state. -/
def OidcError.Other (e : OidcError) : Prop := e.isState = false

theorem raises_documentGet {key : String} {document : Json} : Raises OidcError.Other (documentGet key document) := by
  unfold documentGet
  split
  · exact raises_ok
  · exact raises_error rfl

theorem raises_exchangeCode {answers : ProviderAnswers} {code : String} {tx : OidcAuthTransaction} :
    Raises OidcError.Other (exchangeCode lib answers code tx) := by
  apply raises_bind
  · exact raises_mapError fun _ => rfl
  intro codeVerifier
  apply raises_bind
  · exact raises_mapError fun _ => rfl
  intro metadata
  apply raises_bind raises_documentGet
  intro tokenEndpoint
  apply raises_bind
  · exact raises_refuseIf rfl
  · exact fun _ => raises_mapError fun _ => rfl

theorem raises_idTokenOf {response : TokenResponse} : Raises OidcError.Other (idTokenOf response) := by
  apply raises_bind
  · exact raises_mapError fun _ => rfl
  intro tokens
  apply raises_bind raises_documentGet
  intro idToken
  apply raises_bind
  · exact raises_refuseIf rfl
  · exact fun _ => raises_ok

theorem raises_keySetOf {answers : ProviderAnswers} : Raises OidcError.Other (keySetOf lib answers) := by
  refine raises_bind (K := OidcError.Other) ?_ fun _ => raises_mapError fun _ => rfl
  unfold getJwks
  split
  · exact raises_ok
  · apply raises_bind
    · exact raises_mapError fun _ => rfl
    intro metadata
    apply raises_bind raises_documentGet
    intro jwksUri
    apply raises_bind
    · exact raises_refuseIf rfl
    · exact fun _ => raises_mapError fun _ => rfl

theorem raises_verifyClaims {nonceHash : String} {claims : Json} :
    Raises OidcError.Other (verifyClaims lib mgr nonceHash claims) := by
  apply raises_bind
  · exact raises_refuseIf rfl
  intro _
  apply raises_bind
  · exact raises_refuseIf rfl
  intro _
  apply raises_bind
  · exact raises_refuseIf rfl
  intro _
  apply raises_bind
  · exact raises_refuseIf rfl
  intro _
  unfold verifyNonce
  split
  · exact raises_refuseIf rfl
  · split
    · exact raises_error rfl
    · exact raises_error rfl

theorem raises_claimedIdentity {claims : Json} : Raises OidcError.Other (claimedIdentity claims) := by
  apply raises_bind
  · exact raises_refuseIf rfl
  intro _
  split
  · apply raises_bind
    · exact raises_refuseIf rfl
    · exact fun _ => raises_ok
  · exact raises_error rfl

/-! ## No step after the consumption touches a transaction, or raises an error of the state -/

/-- What is committed, and what is worked on, is one of two tables of transactions. -/
def Held.Among (A : Dict String OidcAuthTransaction → Prop) (s : Held OidcDatabase) : Prop :=
  A s.committed.transactions ∧ A s.working.transactions

/-- A program that keeps the tables of transactions, and does not raise an error of the state. -/
abbrev Framed (A : Dict String OidcAuthTransaction → Prop) {α : Type} (m : Work OidcDatabase OidcError α) : Prop :=
  Work.Triple (Held.Among A) m (fun _ => Held.Among A) (fun e s => Held.Among A s ∧ e.Other)

variable {A : Dict String OidcAuthTransaction → Prop} {α β : Type}

theorem framed_bind {m : Work OidcDatabase OidcError α} {f : α → Work OidcDatabase OidcError β} (hm : Framed A m)
    (hf : ∀ a, Framed A (f a)) : Framed A (m >>= f) := Work.Triple.bind hm hf

theorem framed_pure {a : α} : Framed A (pure a) := Work.Triple.pure fun _ hs => hs

theorem framed_raise {e : OidcError} (he : e.Other) : Framed A (Work.raise e : Work OidcDatabase OidcError α) :=
  Work.Triple.raise fun _ hs => ⟨hs, he⟩

theorem framed_lift {x : Except OidcError α} (hx : Raises OidcError.Other x) : Framed A (Work.lift x) :=
  Work.Triple.lift (fun _ _ _ hs => hs) fun e he _ hs => ⟨hs, hx e he⟩

theorem framed_read : Framed A (Work.read : Work OidcDatabase OidcError OidcDatabase) := Work.Triple.read fun _ hs => hs

theorem framed_commit : Framed A (Work.commit : Work OidcDatabase OidcError Unit) :=
  Work.Triple.commit fun _ hs => ⟨hs.2, hs.2⟩

theorem framed_rollback : Framed A (Work.rollback : Work OidcDatabase OidcError Unit) :=
  Work.Triple.rollback fun _ hs => ⟨hs.1, hs.1⟩

theorem framed_whenever {c : Prop} [Decidable c] {m : Work OidcDatabase OidcError Unit} (hm : Framed A m) :
    Framed A (Work.whenever c m) := Work.Triple.whenever (fun _ => hm) fun _ _ hs => hs

/-- A statement on other tables. -/
theorem framed_execute {f : OidcDatabase → Except OidcError (α × OidcDatabase)}
    (hkeeps : ∀ db a db', f db = .ok (a, db') → db'.transactions = db.transactions)
    (hraises : ∀ db, Raises OidcError.Other (f db)) : Framed A (Work.execute f) := by
  apply Work.Triple.execute
  · intro s a working hs hf
    exact ⟨hs.1, by rw [hkeeps _ _ _ hf]; exact hs.2⟩
  · intro s e hs hf
    exact ⟨hs, hraises _ e hf⟩

theorem framed_handle {m : Work OidcDatabase OidcError α} {handler : OidcError → Work OidcDatabase OidcError α}
    (hm : Framed A m) (hhandler : ∀ e : OidcError, e.Other → Framed A (handler e)) :
    Framed A (Work.handle m handler) := by
  apply Work.Triple.handle _ hm
  intro e s hs
  exact hhandler e hs.2 s hs.1

theorem framed_recordSecurityEvent {event : SecurityEvent} : Framed A (recordSecurityEvent lib backend event) := by
  apply framed_execute
  · intro db a db' h
    obtain ⟨_, h⟩ := bind_unit_eq_ok.mp h
    cases h
    rfl
  · intro db
    apply raises_bind
    · exact raises_refuseIf rfl
    · exact fun _ => raises_ok

theorem framed_failCommitted {event : SecurityEvent} {e : OidcError} (he : e.Other) :
    Framed A (failCommitted lib backend event e : Work OidcDatabase OidcError α) := by
  apply framed_bind framed_recordSecurityEvent
  intro _
  exact framed_bind framed_commit fun _ => framed_raise he

theorem takeText_eq_ok {value : Json} {text : String} :
    takeText lib backend value = .ok text ↔ lib.driverText backend value = some text := by
  unfold takeText
  cases lib.driverText backend value with
  | none => exact iff_of_false (fun h => by cases h) fun h => by cases h
  | some text' => rw [Except.ok.injEq, Option.some.injEq]

theorem takeColumn_eq_ok {text column : String} :
    takeColumn lib backend text = .ok column ↔ lib.columnText backend text = some column := by
  unfold takeColumn
  cases lib.columnText backend text with
  | none => exact iff_of_false (fun h => by cases h) fun h => by cases h
  | some column' => rw [Except.ok.injEq, Option.some.injEq]

theorem raises_takeText {value : Json} : Raises OidcError.Other (takeText lib backend value) := by
  unfold takeText
  split
  · exact raises_ok
  · exact raises_error rfl

theorem raises_takeColumn {text : String} : Raises OidcError.Other (takeColumn lib backend text) := by
  unfold takeColumn
  split
  · exact raises_ok
  · exact raises_error rfl

theorem framed_resolvePostgres {who : ClaimedIdentity} : Framed A (resolvePostgres lib backend mgr who) := by
  apply framed_handle
  · apply framed_execute
    · intro db a db' h
      obtain ⟨email, _, h⟩ := bind_eq_ok.mp h
      obtain ⟨displayName, _, h⟩ := bind_eq_ok.mp h
      obtain ⟨subject, _, h⟩ := bind_eq_ok.mp h
      obtain ⟨normEmail, _, h⟩ := bind_eq_ok.mp h
      obtain ⟨_, h⟩ := bind_unit_eq_ok.mp h
      split at h
      · obtain ⟨_, h⟩ := bind_unit_eq_ok.mp h
        obtain ⟨column, _, h⟩ := bind_eq_ok.mp h
        cases h
        rfl
      · obtain ⟨_, h⟩ := bind_unit_eq_ok.mp h
        obtain ⟨column, _, h⟩ := bind_eq_ok.mp h
        obtain ⟨column', _, h⟩ := bind_eq_ok.mp h
        obtain ⟨_, h⟩ := bind_unit_eq_ok.mp h
        cases h
        rfl
    · intro db
      apply raises_bind raises_takeText
      intro email
      apply raises_bind raises_takeText
      intro displayName
      apply raises_bind raises_takeText
      intro subject
      apply raises_bind raises_takeColumn
      intro normEmail
      apply raises_bind
      · exact raises_refuseIf rfl
      intro _
      split
      · apply raises_bind
        · exact raises_refuseIf rfl
        intro _
        exact raises_bind raises_takeColumn fun _ => raises_ok
      · apply raises_bind
        · exact raises_refuseIf rfl
        intro _
        apply raises_bind raises_takeColumn
        intro _
        apply raises_bind raises_takeColumn
        intro _
        exact raises_bind (raises_refuseIf rfl) fun _ => raises_ok
  · intro e he
    apply framed_bind framed_rollback
    intro _
    dsimp only
    split
    · split
      · exact framed_failCommitted rfl
      · exact framed_raise rfl
    · exact framed_raise he

theorem framed_resolveSqlite {who : ClaimedIdentity} : Framed A (resolveSqlite lib backend mgr who) := by
  have htext : Raises OidcError.Other (textOf who.email) := by
    unfold textOf
    split
    · exact raises_ok
    · exact raises_error rfl
  have hwrite : ∀ (answer : OidcDatabase → Nat) (write : String → OidcDatabase → OidcDatabase),
      (∀ name db, (write name db).transactions = db.transactions) →
      Framed A (Work.execute fun db => do
        let displayName ← takeText lib .sqlite who.displayName
        return (answer db, write displayName db)) := by
    intro answer write hkeeps
    apply framed_execute
    · intro db a db' h
      obtain ⟨displayName, _, h⟩ := bind_eq_ok.mp h
      cases h
      exact hkeeps _ _
    · intro db
      exact raises_bind raises_takeText fun _ => raises_ok
  apply framed_bind (framed_lift htext)
  intro email
  apply framed_bind framed_read
  intro db
  apply framed_bind
  · exact framed_lift (raises_refuseIf rfl)
  intro _
  split
  · split
    · exact hwrite (fun _ => _) (fun name db => db.refresh _ _ _ name _ _) fun _ _ => rfl
    · exact framed_raise rfl
  · split
    · exact framed_failCommitted rfl
    · exact hwrite (fun db => db.principals.length) (fun name db => db.register _ _ _ name) fun _ _ => rfl

variable (lib backend mgr A) in
theorem framed_completeCallback (answers : ProviderAnswers) (code stateHash : String) (now : Instant)
    (tx : OidcAuthTransaction) : Framed A (completeCallback lib backend mgr answers code stateHash now tx) := by
  apply framed_bind (framed_lift raises_exchangeCode)
  intro response
  apply framed_bind
  · exact framed_whenever (framed_failCommitted rfl)
  intro _
  apply framed_bind (framed_lift raises_idTokenOf)
  intro idToken
  apply framed_bind (framed_lift raises_keySetOf)
  intro keySet
  split
  · exact framed_failCommitted rfl
  · apply framed_bind (framed_lift raises_verifyClaims)
    intro _
    apply framed_bind
    · exact framed_whenever (framed_failCommitted rfl)
    intro _
    apply framed_bind (framed_lift raises_claimedIdentity)
    intro who
    apply framed_bind _ fun principalId =>
      framed_bind framed_recordSecurityEvent fun _ => framed_bind framed_commit fun _ => framed_pure
    unfold resolveIdentity
    split
    · exact framed_resolvePostgres
    · exact framed_resolveSqlite

/-! ## The exits that commit -/

variable (lib backend mgr) in
/-- The table of security events takes a row with these details. -/
def Fits (details : List (String × Json)) : Prop := lib.detailsSize backend details ≤ 4096

variable (lib backend mgr) in
/-- The claimed identity is one that leads to a commit. -/
inductive Resolves (db : OidcDatabase) (who : ClaimedIdentity) : Prop
  /-- PostgreSQL, and the principal is known. -/
  | knownPostgres {email displayName subject normalised column : String} {fed : FederatedIdentity} {p : Principal}
      (hpostgres : backend = .postgres) (hemail : lib.driverText .postgres who.email = some email)
      (hname : lib.driverText .postgres who.displayName = some displayName)
      (hsubject : lib.driverText .postgres (.str who.subject) = some subject)
      (hnormalised : lib.columnText .postgres (normEmail lib.letters .postgres email) = some normalised)
      (htrusted : db.trustedIssuers.get? mgr.issuerUrl = some true)
      (hfed : db.federated mgr.issuerUrl subject = some (fed, p)) (hactive : p.isActive = true)
      (hcolumn : lib.columnText .postgres displayName = some column)
      (hfits : Fits lib backend [("issuer", .str mgr.issuerUrl), ("email", who.email)])
  /-- PostgreSQL, and neither the subject nor the e-mail address is known. -/
  | registeredPostgres {email displayName subject normalised column subjectColumn : String}
      (hpostgres : backend = .postgres) (hemail : lib.driverText .postgres who.email = some email)
      (hname : lib.driverText .postgres who.displayName = some displayName)
      (hsubject : lib.driverText .postgres (.str who.subject) = some subject)
      (hnormalised : lib.columnText .postgres (normEmail lib.letters .postgres email) = some normalised)
      (htrusted : db.trustedIssuers.get? mgr.issuerUrl = some true)
      (hfed : db.federated mgr.issuerUrl subject = none)
      (hfree : (db.principals.any fun p => lib.letters.postgres p.email = normalised) = false)
      (hcolumn : lib.columnText .postgres displayName = some column)
      (hsubjectColumn : lib.columnText .postgres subject = some subjectColumn)
      (hunclaimed : db.identities.get? (mgr.issuerUrl, subjectColumn) = none)
      (hfits : Fits lib backend [("issuer", .str mgr.issuerUrl), ("email", who.email)])
  | knownSqlite {email displayName : String} {fed : FederatedIdentity} {p : Principal}
      (hsqlite : backend = .sqlite) (hemail : who.email = .str email)
      (htrusted : db.trustedIssuers.get? mgr.issuerUrl = some true)
      (hfed : db.identities.get? (mgr.issuerUrl, who.subject) = some fed)
      (hprincipal : db.principals[fed.principalId]? = some p) (hactive : p.isActive = true)
      (hname : lib.driverText .sqlite who.displayName = some displayName)
      (hfits : Fits lib backend [("issuer", .str mgr.issuerUrl), ("email", who.email)])
  /-- SQLite commits the event of a collision with the consumption. -/
  | collisionSqlite {email : String} (hsqlite : backend = .sqlite) (hemail : who.email = .str email)
      (htrusted : db.trustedIssuers.get? mgr.issuerUrl = some true)
      (hfed : db.identities.get? (mgr.issuerUrl, who.subject) = none)
      (htaken : (db.principals.any fun p => p.email = normEmail lib.letters .sqlite email) = true)
      (hfits : Fits lib backend [("issuer", .str mgr.issuerUrl), ("subject", .str who.subject)])
  | registeredSqlite {email displayName : String} (hsqlite : backend = .sqlite) (hemail : who.email = .str email)
      (htrusted : db.trustedIssuers.get? mgr.issuerUrl = some true)
      (hfed : db.identities.get? (mgr.issuerUrl, who.subject) = none)
      (hfree : (db.principals.any fun p => p.email = normEmail lib.letters .sqlite email) = false)
      (hname : lib.driverText .sqlite who.displayName = some displayName)
      (hfits : Fits lib backend [("issuer", .str mgr.issuerUrl), ("email", who.email)])

variable (lib backend mgr) in
/-- The answers of the provider lead a consumed transaction to a commit. -/
inductive EndsCommitted (db : OidcDatabase) (answers : ProviderAnswers) (code : String) (now : Instant)
    (tx : OidcAuthTransaction) : Prop
  /-- The token endpoint refuses. -/
  | refused {response : TokenResponse} (hexchange : exchangeCode lib answers code tx = .ok response)
      (hstatus : response.statusCode ≠ 200) (hfits : Fits lib backend [("error", .str "token_endpoint_error"), ("status", .int response.statusCode)])
  /-- The ID token does not decode, or is not valid. -/
  | undecoded {response : TokenResponse} {idToken keySet : Json}
      (hexchange : exchangeCode lib answers code tx = .ok response) (hstatus : response.statusCode = 200)
      (hidToken : idTokenOf response = .ok idToken) (hkeySet : keySetOf lib answers = .ok keySet)
      (hdecode : lib.decodeToken idToken keySet now = none) (hfits : Fits lib backend [("error", .str "jwt_decode_error")])
  /-- The e-mail address is not verified. -/
  | unverified {response : TokenResponse} {idToken keySet claims : Json}
      (hexchange : exchangeCode lib answers code tx = .ok response) (hstatus : response.statusCode = 200)
      (hidToken : idTokenOf response = .ok idToken) (hkeySet : keySetOf lib answers = .ok keySet)
      (hdecode : lib.decodeToken idToken keySet now = some claims)
      (hverify : verifyClaims lib mgr tx.nonceHash claims = .ok ())
      (hverified : jsonTruth (claims.get "email_verified") = false)
      (hfits : Fits lib backend [("error", .str "unverified_email")])
  | resolved {response : TokenResponse} {idToken keySet claims : Json} {who : ClaimedIdentity}
      (hexchange : exchangeCode lib answers code tx = .ok response) (hstatus : response.statusCode = 200)
      (hidToken : idTokenOf response = .ok idToken) (hkeySet : keySetOf lib answers = .ok keySet)
      (hdecode : lib.decodeToken idToken keySet now = some claims)
      (hverify : verifyClaims lib mgr tx.nonceHash claims = .ok ())
      (hverified : jsonTruth (claims.get "email_verified") = true) (hwho : claimedIdentity claims = .ok who)
      (hresolves : Resolves lib backend mgr db who)

/-- A program that commits a table of transactions, however it ends. -/
abbrev Commits (P : Held OidcDatabase → Prop) (T : Dict String OidcAuthTransaction) {α : Type}
    (m : Work OidcDatabase OidcError α) : Prop :=
  Work.Triple P m (fun _ s => s.committed.transactions = T) (fun _ s => s.committed.transactions = T)

variable {T : Dict String OidcAuthTransaction} {db : OidcDatabase}

theorem recorded {event : SecurityEvent} (hfits : Fits lib backend event.details) :
    Work.Triple (fun s => s.working.transactions = T) (recordSecurityEvent lib backend event)
      (fun _ s => s.working.transactions = T) (fun _ _ => False) := by
  apply Work.Triple.execute
  · intro s a working hs h
    obtain ⟨_, h⟩ := bind_unit_eq_ok.mp h
    cases h
    exact hs
  · intro s e hs h
    rw [refuseIf, if_neg (Nat.not_lt.mpr hfits)] at h
    cases h

theorem raised_failCommitted {event : SecurityEvent} (hfits : Fits lib backend event.details) {e : OidcError}
    {P : Held OidcDatabase → Prop} (hP : ∀ s, P s → s.working.transactions = T) :
    Work.Triple P (failCommitted lib backend event e : Work OidcDatabase OidcError α) (fun _ _ => False)
      (fun _ s => s.committed.transactions = T) := by
  apply Work.Triple.bind ((recorded hfits).consequence hP (fun _ _ hs => hs) fun _ _ hfalse => hfalse.elim)
  intro _
  apply Work.Triple.bind (Q := fun _ s => s.committed.transactions = T)
  · exact Work.Triple.commit fun s hs => hs
  · exact fun _ => Work.Triple.raise fun s hs => hs

/-- Nothing after an event that is committed before an exception. -/
theorem commits_failCommitted {event : SecurityEvent} (hfits : Fits lib backend event.details) {e : OidcError}
    {P : Held OidcDatabase → Prop} (hP : ∀ s, P s → s.working.transactions = T)
    (f : α → Work OidcDatabase OidcError β) : Commits P T (failCommitted lib backend event e >>= f) := by
  apply Work.Triple.bind (raised_failCommitted hfits hP)
  exact fun _ _ hfalse => hfalse.elim

/-- The end of a sign-in. -/
theorem commits_success {principalId : Nat} {who : ClaimedIdentity} {returnTo : String}
    (hfits : Fits lib backend [("issuer", .str mgr.issuerUrl), ("email", who.email)]) :
    Commits (fun s => s.working.transactions = T) T (do
      recordSecurityEvent lib backend (successEvent mgr principalId who.email)
      Work.commit
      return (principalId, returnTo)) := by
  apply Work.Triple.bind ((recorded hfits).consequence (fun _ hs => hs) (fun _ _ hs => hs) fun _ _ hfalse => hfalse.elim)
  intro _
  apply Work.Triple.bind (Q := fun _ s => s.committed.transactions = T)
  · exact Work.Triple.commit fun s hs => hs
  · exact fun _ => Work.Triple.pure fun s hs => hs

/-- What the function of PostgreSQL answers for a principal that it knows. -/
theorem resolveFederatedIdentity_known {who : ClaimedIdentity} {email displayName subject normalised column : String}
    {fed : FederatedIdentity} {p : Principal} (hemail : lib.driverText .postgres who.email = some email)
    (hname : lib.driverText .postgres who.displayName = some displayName)
    (hsubject : lib.driverText .postgres (.str who.subject) = some subject)
    (hnormalised : lib.columnText .postgres (normEmail lib.letters .postgres email) = some normalised)
    (htrusted : db.trustedIssuers.get? mgr.issuerUrl = some true)
    (hfed : db.federated mgr.issuerUrl subject = some (fed, p)) (hactive : p.isActive = true)
    (hcolumn : lib.columnText .postgres displayName = some column) :
    resolveFederatedIdentity lib mgr who db =
      .ok (fed.principalId, db.refresh mgr.issuerUrl subject normalised column fed p) := by
  simp [resolveFederatedIdentity, takeText, takeColumn, refuseIf, bind, Except.bind, pure, Except.pure, hemail, hname,
    hsubject, hnormalised, htrusted, hfed, hactive, hcolumn]

/-- What it answers for one that it registers. -/
theorem resolveFederatedIdentity_new {who : ClaimedIdentity}
    {email displayName subject normalised column subjectColumn : String}
    (hemail : lib.driverText .postgres who.email = some email)
    (hname : lib.driverText .postgres who.displayName = some displayName)
    (hsubject : lib.driverText .postgres (.str who.subject) = some subject)
    (hnormalised : lib.columnText .postgres (normEmail lib.letters .postgres email) = some normalised)
    (htrusted : db.trustedIssuers.get? mgr.issuerUrl = some true)
    (hfed : db.federated mgr.issuerUrl subject = none)
    (hfree : (db.principals.any fun p => lib.letters.postgres p.email = normalised) = false)
    (hcolumn : lib.columnText .postgres displayName = some column)
    (hsubjectColumn : lib.columnText .postgres subject = some subjectColumn)
    (hunclaimed : db.identities.get? (mgr.issuerUrl, subjectColumn) = none) :
    resolveFederatedIdentity lib mgr who db =
      .ok (db.principals.length, db.register mgr.issuerUrl subjectColumn normalised column) := by
  simp [resolveFederatedIdentity, takeText, takeColumn, refuseIf, bind, Except.bind, pure, Except.pure, hemail, hname,
    hsubject, hnormalised, htrusted, hfed, hcolumn, hsubjectColumn, hunclaimed, hfree]

/-- A statement that succeeds. -/
theorem stated {f : OidcDatabase → Except OidcError (Nat × OidcDatabase)} {n : Nat} {db' : OidcDatabase}
    (hf : f db = .ok (n, db')) (htransactions : db'.transactions = db.transactions) :
    Work.Triple (fun s => s.working = db) (Work.execute f) (fun _ s => s.working.transactions = db.transactions)
      (fun _ _ => False) := by
  apply Work.Triple.execute
  · rintro s a working rfl h
    rw [hf] at h
    cases h
    exact htransactions
  · rintro s e rfl h
    rw [hf] at h
    cases h

theorem stated_resolvePostgres {who : ClaimedIdentity} {n : Nat} {db' : OidcDatabase}
    (h : resolveFederatedIdentity lib mgr who db = .ok (n, db')) (htransactions : db'.transactions = db.transactions) :
    Work.Triple (fun s => s.working = db) (resolvePostgres lib backend mgr who)
      (fun _ s => s.working.transactions = db.transactions) (fun _ _ => False) := by
  apply Work.Triple.handle (fun _ _ => False)
  · exact stated h htransactions
  · exact fun _ _ hfalse => hfalse.elim

theorem stated_sqliteKnown {who : ClaimedIdentity} {email displayName : String} {fed : FederatedIdentity}
    {p : Principal} (hemail : who.email = .str email) (htrusted : db.trustedIssuers.get? mgr.issuerUrl = some true)
    (hfed : db.identities.get? (mgr.issuerUrl, who.subject) = some fed)
    (hprincipal : db.principals[fed.principalId]? = some p) (hactive : p.isActive = true)
    (hname : lib.driverText .sqlite who.displayName = some displayName) :
    Work.Triple (fun s => s.working = db) (resolveSqlite lib backend mgr who)
      (fun _ s => s.working.transactions = db.transactions) (fun _ _ => False) := by
  apply Work.Triple.congr (Work.execute fun db => do
    let displayName ← takeText lib .sqlite who.displayName
    return (fed.principalId, db.refresh mgr.issuerUrl who.subject (normEmail lib.letters .sqlite email) displayName
      fed p))
  · rintro s rfl
    simp [resolveSqlite, bind, Work.bind, Work.lift, Work.read, textOf, hemail, refuseIf, htrusted, hfed,
      hprincipal, Option.filter, hactive]
  · apply stated
    · rw [takeText, hname]
      rfl
    · rfl

theorem stated_sqliteNew {who : ClaimedIdentity} {email displayName : String} (hemail : who.email = .str email)
    (htrusted : db.trustedIssuers.get? mgr.issuerUrl = some true)
    (hfed : db.identities.get? (mgr.issuerUrl, who.subject) = none)
    (hfree : (db.principals.any fun p => p.email = normEmail lib.letters .sqlite email) = false)
    (hname : lib.driverText .sqlite who.displayName = some displayName) :
    Work.Triple (fun s => s.working = db) (resolveSqlite lib backend mgr who)
      (fun _ s => s.working.transactions = db.transactions) (fun _ _ => False) := by
  apply Work.Triple.congr (Work.execute fun db => do
    let displayName ← takeText lib .sqlite who.displayName
    return (db.principals.length, db.register mgr.issuerUrl who.subject (normEmail lib.letters .sqlite email)
      displayName))
  · rintro s rfl
    simp only [resolveSqlite, bind, Work.bind, Work.lift, Work.read, textOf, hemail, refuseIf, htrusted, hfed,
      hfree, ne_eq, not_true_eq_false, if_false, Bool.false_eq_true]
  · apply stated
    · rw [takeText, hname]
      rfl
    · rfl

/-- A collision on SQLite commits the consumption with its event, and raises. -/
theorem commits_sqliteCollision {who : ClaimedIdentity} {email : String} (hemail : who.email = .str email)
    (htrusted : db.trustedIssuers.get? mgr.issuerUrl = some true)
    (hfed : db.identities.get? (mgr.issuerUrl, who.subject) = none)
    (htaken : (db.principals.any fun p => p.email = normEmail lib.letters .sqlite email) = true)
    (hfits : Fits lib backend [("issuer", .str mgr.issuerUrl), ("subject", .str who.subject)]) :
    Work.Triple (fun s => s.working = db) (resolveSqlite lib backend mgr who) (fun _ _ => False)
      (fun _ s => s.committed.transactions = db.transactions) := by
  apply Work.Triple.congr (failCommitted lib backend (collisionEvent mgr
    ((normEmail lib.letters .sqlite email).take 64).toString who.subject) (collisionError email))
  · rintro s rfl
    simp only [resolveSqlite, bind, Work.bind, Work.lift, Work.read, textOf, hemail, refuseIf, htrusted, hfed,
      htaken, ne_eq, not_true_eq_false, if_false, if_true]
  · exact raised_failCommitted hfits fun s hs => by rw [hs]

/-- An identity that resolves is the end of a sign-in that commits. -/
theorem commits_resolve {who : ClaimedIdentity} {returnTo : String} (h : Resolves lib backend mgr db who) :
    Commits (fun s => s.working = db) db.transactions (do
      let principalId ← resolveIdentity lib backend mgr who
      recordSecurityEvent lib backend (successEvent mgr principalId who.email)
      Work.commit
      return (principalId, returnTo)) := by
  have hrest : Fits lib backend [("issuer", .str mgr.issuerUrl), ("email", who.email)] →
      Work.Triple (fun s => s.working = db) (resolveIdentity lib backend mgr who)
        (fun _ s => s.working.transactions = db.transactions) (fun _ _ => False) →
      Commits (fun s => s.working = db) db.transactions (do
        let principalId ← resolveIdentity lib backend mgr who
        recordSecurityEvent lib backend (successEvent mgr principalId who.email)
        Work.commit
        return (principalId, returnTo)) := by
    intro hfits hresolve
    apply Work.Triple.bind (hresolve.consequence (fun _ hs => hs) (fun _ _ hs => hs) fun _ _ hfalse => hfalse.elim)
    exact fun principalId => commits_success hfits
  cases h with
  | knownPostgres hpostgres hemail hname hsubject hnormalised htrusted hfed hactive hcolumn hfits =>
      subst hpostgres
      exact hrest hfits (stated_resolvePostgres (resolveFederatedIdentity_known hemail hname hsubject hnormalised
        htrusted hfed hactive hcolumn) rfl)
  | registeredPostgres hpostgres hemail hname hsubject hnormalised htrusted hfed hfree hcolumn hsubjectColumn
      hunclaimed hfits =>
      subst hpostgres
      exact hrest hfits (stated_resolvePostgres (resolveFederatedIdentity_new hemail hname hsubject hnormalised
        htrusted hfed hfree hcolumn hsubjectColumn hunclaimed) rfl)
  | knownSqlite hsqlite hemail htrusted hfed hprincipal hactive hname hfits =>
      subst hsqlite
      exact hrest hfits (stated_sqliteKnown hemail htrusted hfed hprincipal hactive hname)
  | collisionSqlite hsqlite hemail htrusted hfed htaken hfits =>
      subst hsqlite
      apply Work.Triple.bind (commits_sqliteCollision hemail htrusted hfed htaken hfits)
      exact fun _ _ hfalse => hfalse.elim
  | registeredSqlite hsqlite hemail htrusted hfed hfree hname hfits =>
      subst hsqlite
      exact hrest hfits (stated_sqliteNew hemail htrusted hfed hfree hname)

/-- **A call whose answers lead to a commit commits the consumption.** -/
theorem commits_completeCallback (stateHash : String) {answers : ProviderAnswers} {code : String} {now : Instant}
    {tx : OidcAuthTransaction} (h : EndsCommitted lib backend mgr db answers code now tx) :
    Commits (fun s => s.working = db) db.transactions
      (completeCallback lib backend mgr answers code stateHash now tx) := by
  have hworking : ∀ s : Held OidcDatabase, s.working = db → s.working.transactions = db.transactions := by
    rintro s rfl
    rfl
  cases h with
  | refused hexchange hstatus hfits =>
      rw [completeCallback, Work.lift_bind hexchange, Work.whenever_pos hstatus]
      exact commits_failCommitted hfits hworking _
  | undecoded hexchange hstatus hidToken hkeySet hdecode hfits =>
      rw [completeCallback, Work.lift_bind hexchange, Work.whenever_bind (not_not.mpr hstatus),
        Work.lift_bind hidToken, Work.lift_bind hkeySet, hdecode]
      exact (raised_failCommitted hfits hworking).consequence (fun _ hs => hs) (fun _ _ hfalse => hfalse.elim)
        fun _ _ hs => hs
  | unverified hexchange hstatus hidToken hkeySet hdecode hverify hverified hfits =>
      rw [completeCallback, Work.lift_bind hexchange, Work.whenever_bind (not_not.mpr hstatus),
        Work.lift_bind hidToken, Work.lift_bind hkeySet, hdecode]
      show Commits _ _ (signIn lib backend mgr tx _)
      rw [signIn, Work.lift_bind hverify, Work.whenever_pos hverified]
      exact commits_failCommitted hfits hworking _
  | resolved hexchange hstatus hidToken hkeySet hdecode hverify hverified hwho hresolves =>
      rw [completeCallback, Work.lift_bind hexchange, Work.whenever_bind (not_not.mpr hstatus),
        Work.lift_bind hidToken, Work.lift_bind hkeySet, hdecode]
      show Commits _ _ (signIn lib backend mgr tx _)
      rw [signIn, Work.lift_bind hverify, Work.whenever_bind (by rw [hverified]; exact Bool.false_ne_true.symm),
        Work.lift_bind hwho]
      exact commits_resolve hresolves

/-! ## A call, and what it does to the table of transactions -/

/-- The database in which a transaction is consumed. -/
def OidcDatabase.consume (db : OidcDatabase) (stateHash : String) (now : Instant) (tx : OidcAuthTransaction) :
    OidcDatabase :=
  { db with transactions := db.transactions.insert stateHash { tx with consumedAt := some now } }

variable {answers : ProviderAnswers} {code state : String} {now : Instant} {tx : OidcAuthTransaction}

theorem consumed_some (h : db.openTransaction (lib.hashToken state) now = some tx) :
    processCallback lib backend mgr answers code state now ⟨db, db⟩ =
      completeCallback lib backend mgr answers code (lib.hashToken state) now tx
        ⟨db, db.consume (lib.hashToken state) now tx⟩ := by
  simp only [processCallback, consumeTransaction, bind, Work.bind, Work.execute, h]
  rfl

theorem consumed_none (h : db.openTransaction (lib.hashToken state) now = none) :
    processCallback lib backend mgr answers code state now ⟨db, db⟩ =
      failCommitted lib backend (invalidStateEvent (lib.hashToken state))
        (.state "Invalid, expired, or previously consumed OIDC state") ⟨db, db⟩ := by
  simp only [processCallback, consumeTransaction, bind, Work.bind, Work.execute, h]

/-- A state that is not open is refused. -/
theorem callback_of_closed (hfits : Fits lib backend [("error", .str "invalid_or_replayed_state")])
    (h : db.openTransaction (lib.hashToken state) now = none) :
    (db.callback lib backend mgr answers code state now).1 =
      .error (.state "Invalid, expired, or previously consumed OIDC state") ∧
    (db.callback lib backend mgr answers code state now).2.transactions = db.transactions := by
  rw [OidcDatabase.callback, Work.close, consumed_none h]
  simp [failCommitted, recordSecurityEvent, bind, Work.bind, Work.execute, Work.commit, Work.raise, refuseIf,
    Except.bind, pure, Except.pure, invalidStateEvent, callbackFailed, Nat.not_lt.mpr hfits]

/-- A state that is open is consumed, or left as it is. -/
theorem callback_of_open (backend : Backend) (mgr : OidcManager) (answers : ProviderAnswers) (code : String)
    (h : db.openTransaction (lib.hashToken state) now = some tx) :
    (db.callback lib backend mgr answers code state now).2.transactions = db.transactions ∨
      (db.callback lib backend mgr answers code state now).2.transactions =
        (db.consume (lib.hashToken state) now tx).transactions := by
  have hframe := framed_completeCallback lib backend mgr
    (fun t => t = db.transactions ∨ t = (db.consume (lib.hashToken state) now tx).transactions) answers code
    (lib.hashToken state) now tx
    ⟨db, db.consume (lib.hashToken state) now tx⟩ ⟨Or.inl rfl, Or.inr rfl⟩
  rw [OidcDatabase.callback, Work.close, consumed_some h]
  revert hframe
  rcases completeCallback lib backend mgr answers code (lib.hashToken state) now tx
    ⟨db, db.consume (lib.hashToken state) now tx⟩ with ⟨⟨⟩ | ⟨⟩, s'⟩
  · exact fun hframe => hframe.1.1
  · exact fun hframe => hframe.1

theorem Resolves.consume {who : ClaimedIdentity} (h : Resolves lib backend mgr db who) (stateHash : String) :
    Resolves lib backend mgr (db.consume stateHash now tx) who := by
  cases h with
  | knownPostgres hpostgres hemail hname hsubject hnormalised htrusted hfed hactive hcolumn hfits =>
      exact .knownPostgres hpostgres hemail hname hsubject hnormalised htrusted hfed hactive hcolumn hfits
  | registeredPostgres hpostgres hemail hname hsubject hnormalised htrusted hfed hfree hcolumn hsubjectColumn
      hunclaimed hfits =>
      exact .registeredPostgres hpostgres hemail hname hsubject hnormalised htrusted hfed hfree hcolumn hsubjectColumn
        hunclaimed hfits
  | knownSqlite hsqlite hemail htrusted hfed hprincipal hactive hname hfits =>
      exact .knownSqlite hsqlite hemail htrusted hfed hprincipal hactive hname hfits
  | collisionSqlite hsqlite hemail htrusted hfed htaken hfits =>
      exact .collisionSqlite hsqlite hemail htrusted hfed htaken hfits
  | registeredSqlite hsqlite hemail htrusted hfed hfree hname hfits =>
      exact .registeredSqlite hsqlite hemail htrusted hfed hfree hname hfits

theorem EndsCommitted.consume (h : EndsCommitted lib backend mgr db answers code now tx) (stateHash : String) :
    EndsCommitted lib backend mgr (db.consume stateHash now tx) answers code now tx := by
  cases h with
  | refused hexchange hstatus hfits => exact .refused hexchange hstatus hfits
  | undecoded hexchange hstatus hidToken hkeySet hdecode hfits =>
      exact .undecoded hexchange hstatus hidToken hkeySet hdecode hfits
  | unverified hexchange hstatus hidToken hkeySet hdecode hverify hverified hfits =>
      exact .unverified hexchange hstatus hidToken hkeySet hdecode hverify hverified hfits
  | resolved hexchange hstatus hidToken hkeySet hdecode hverify hverified hwho hresolves =>
      exact .resolved hexchange hstatus hidToken hkeySet hdecode hverify hverified hwho (hresolves.consume stateHash)

/-- An open state is consumed, if the answers lead to a commit. -/
theorem callback_of_committed (h : db.openTransaction (lib.hashToken state) now = some tx)
    (hcommitted : EndsCommitted lib backend mgr db answers code now tx) :
    (db.callback lib backend mgr answers code state now).2.transactions =
      (db.consume (lib.hashToken state) now tx).transactions := by
  have hcommits := commits_completeCallback (lib.hashToken state) (hcommitted.consume (lib.hashToken state))
    ⟨db, db.consume (lib.hashToken state) now tx⟩ rfl
  rw [OidcDatabase.callback, Work.close, consumed_some h]
  revert hcommits
  rcases completeCallback lib backend mgr answers code (lib.hashToken state) now tx
    ⟨db, db.consume (lib.hashToken state) now tx⟩ with ⟨⟨⟩ | ⟨⟩, s'⟩
  · exact id
  · exact id

/-! ## Runs -/

/-- The transaction of a state is consumed. -/
def Spent (stateHash : String) (transactions : Dict String OidcAuthTransaction) : Prop :=
  ∃ tx, transactions.get? stateHash = some tx ∧ tx.consumedAt.isSome

theorem Spent.closed {stateHash : String} (h : Spent stateHash db.transactions) :
    db.openTransaction stateHash now = none := by
  obtain ⟨tx, htx, hconsumed⟩ := h
  obtain ⟨consumed, hconsumed⟩ := Option.isSome_iff_exists.mp hconsumed
  simp [OidcDatabase.openTransaction, htx, hconsumed]

theorem Spent.insert {stateHash other : String} {transactions : Dict String OidcAuthTransaction}
    (h : Spent stateHash transactions) (hne : stateHash ≠ other) : Spent stateHash (transactions.insert other tx) := by
  obtain ⟨tx, htx, hconsumed⟩ := h
  exact ⟨tx, by rw [Dict.get?_insert, if_neg hne, htx], hconsumed⟩

/-- A new sign-in takes a state that has no transaction. -/
theorem Spent.initiate (lib : OidcLibraries) (backend : Backend) (mgr : OidcManager) (stateHash : String)
    (answers : ProviderAnswers) (rawState rawNonce codeVerifier returnTo : String) (now : Instant) :
    Framed (Spent stateHash)
      (createAuthorizationFlow lib backend mgr answers rawState rawNonce codeVerifier returnTo now) := by
  apply framed_bind
  · exact framed_lift (raises_mapError fun _ => rfl)
  intro metadata
  apply framed_bind (framed_lift raises_documentGet)
  intro endpoint
  apply framed_bind
  · exact framed_lift (raises_refuseIf rfl)
  intro _
  apply framed_bind
  · apply Work.Triple.execute
    · intro s a working hs h
      obtain ⟨hnew, h⟩ := bind_unit_eq_ok.mp h
      cases h
      refine ⟨hs.1, hs.2.insert ?_⟩
      rintro rfl
      obtain ⟨tx, htx, _⟩ := hs.2
      rw [refuseIf_eq_ok, htx] at hnew
      exact hnew rfl
    · intro s e hs h
      rcases bind_eq_error.mp h with h | ⟨_, _, h⟩
      · unfold refuseIf at h
        split at h
        · cases h
          exact ⟨hs, rfl⟩
        · cases h
      · cases h
  intro _
  apply framed_bind framed_recordSecurityEvent
  intro _
  exact framed_bind framed_commit fun _ => framed_pure

variable (lib backend mgr) in
theorem Spent.step {stateHash : String} (hfits : Fits lib backend [("error", .str "invalid_or_replayed_state")])
    {call : OidcCall} (h : Spent stateHash db.transactions) :
    Spent stateHash (db.step lib backend mgr call).transactions := by
  unfold OidcDatabase.step
  split
  · rename_i rawState rawNonce codeVerifier returnTo hoperation
    have hframe := Spent.initiate lib backend mgr stateHash call.answers rawState rawNonce codeVerifier returnTo call.now
      ⟨db, db⟩ ⟨h, h⟩
    rw [Work.close]
    revert hframe
    rcases createAuthorizationFlow lib backend mgr call.answers rawState rawNonce codeVerifier returnTo call.now
      ⟨db, db⟩ with ⟨⟨⟩ | ⟨⟩, s'⟩
    · exact fun hframe => hframe.1.1
    · exact fun hframe => hframe.1
  · rename_i code state hoperation
    cases hopen : db.openTransaction (lib.hashToken state) call.now with
    | none =>
        rw [(callback_of_closed hfits hopen).2]
        exact h
    | some tx =>
        rcases callback_of_open backend mgr call.answers code hopen with hsame | hconsumed
        · rw [hsame]
          exact h
        · rw [hconsumed]
          apply h.insert
          rintro rfl
          rw [h.closed] at hopen
          cases hopen

variable (lib) in
/-- A call with a state passes the consumption step. -/
def passes (state : String) (db : OidcDatabase) (call : OidcCall) : Bool :=
  match call.operation with
  | .initiate _ _ _ _ => false
  | .callback _ state' => state' = state && (db.openTransaction (lib.hashToken state) call.now).isSome

variable (lib backend mgr) in
/-- The sign-in with a state that a call consumes ends at an exit that commits. -/
def CommitsConsumption (state : String) (db : OidcDatabase) (call : OidcCall) : Prop :=
  ∀ code tx, call.operation = .callback code state → db.openTransaction (lib.hashToken state) call.now = some tx →
    EndsCommitted lib backend mgr db call.answers code call.now tx

variable (lib backend mgr) in
/-- At most one call with a state passes the consumption step, and every later one raises `OidcStateError`. -/
structure ConsumedOnce (state : String) (db : OidcDatabase) (calls : List OidcCall) : Prop where
  once : occurrences (OidcDatabase.step lib backend mgr) (passes lib state) db calls ≤ 1
  refused : ∀ before call between later after code, calls = before ++ call :: (between ++ later :: after) →
    passes lib state (run (OidcDatabase.step lib backend mgr) db before) call = true →
    later.operation = .callback code state →
    ∃ message, ((run (OidcDatabase.step lib backend mgr) db (before ++ call :: between)).callback lib backend mgr
      later.answers code state later.now).1 = .error (.state message)

theorem passes_eq_true {state : String} {call : OidcCall} (h : passes lib state db call = true) :
    ∃ code tx, call.operation = .callback code state ∧
      db.openTransaction (lib.hashToken state) call.now = some tx := by
  unfold passes at h
  split at h
  · cases h
  · rename_i code state' hoperation
    rw [Bool.and_eq_true, decide_eq_true_eq] at h
    obtain ⟨rfl, hopen⟩ := h
    obtain ⟨tx, htx⟩ := Option.isSome_iff_exists.mp hopen
    exact ⟨code, tx, hoperation, htx⟩

/-- A call that passes, and ends at a commit, spends the state. -/
theorem spent_of_passes {state : String} {call : OidcCall} (hpasses : passes lib state db call = true)
    (hcommits : CommitsConsumption lib backend mgr state db call) :
    Spent (lib.hashToken state) (db.step lib backend mgr call).transactions := by
  obtain ⟨code, tx, hoperation, hopen⟩ := passes_eq_true hpasses
  rw [OidcDatabase.step, hoperation]
  show Spent _ (db.callback lib backend mgr call.answers code state call.now).2.transactions
  rw [callback_of_committed hopen (hcommits code tx hoperation hopen)]
  refine ⟨{ tx with consumedAt := some call.now }, ?_, rfl⟩
  rw [OidcDatabase.consume, Dict.get?_insert, if_pos rfl]

/-- **`OidcStateError` is raised exactly where the state is not open.** -/
theorem callback_state_iff (hfits : Fits lib backend [("error", .str "invalid_or_replayed_state")]) :
    (∃ message, (db.callback lib backend mgr answers code state now).1 = .error (.state message)) ↔
      db.openTransaction (lib.hashToken state) now = none := by
  constructor
  · rintro ⟨message, h⟩
    cases hopen : db.openTransaction (lib.hashToken state) now with
    | none => rfl
    | some tx =>
        have hframe := framed_completeCallback lib backend mgr (fun _ => True) answers code (lib.hashToken state) now tx
          ⟨db, db.consume (lib.hashToken state) now tx⟩ ⟨trivial, trivial⟩
        rw [OidcDatabase.callback, Work.close, consumed_some hopen] at h
        revert hframe h
        rcases completeCallback lib backend mgr answers code (lib.hashToken state) now tx
          ⟨db, db.consume (lib.hashToken state) now tx⟩ with ⟨⟨⟩ | ⟨⟩, s'⟩
        · rintro h ⟨_, hother⟩
          cases h
          cases hother
        · exact fun h => nomatch h
  · exact fun h => ⟨_, (callback_of_closed hfits h).1⟩

end Callback

/-! ## A sign-in that is retried -/

/-- Libraries for an example: a hash, a cipher and a token that are their own plain texts. -/
def plainLibraries : OidcLibraries where
  letters := plainLetters
  hashToken := id
  encryptCodeVerifier := id
  decryptCodeVerifier := .ok
  importKeySet := .ok
  decodeToken idToken _ _ := some idToken
  str _ := ""
  driverText _ := fun
    | .str text => some text
    | _ => none
  columnText _ text := if text.length ≤ 255 then some text else none
  detailsSize _ details := 64 * details.length
  exceptionText _ _ := ""

def exampleManager : OidcManager where
  issuerUrl := "https://idp"
  clientId := "untangle"

/-- A provider that issues a token with an issuer. -/
def issuing (issuer : String) : ProviderAnswers where
  metadata := .ok (.obj [("token_endpoint", .str "https://idp/token"), ("jwks_uri", .str "https://idp/jwks")])
  post _ _ _ := .ok {
    statusCode := 200
    json := .ok (.obj [("id_token", .obj [("iss", .str issuer), ("aud", .str "untangle"), ("nonce", .str "nonce"),
      ("email_verified", .bool true), ("email", .str "a@b.c"), ("sub", .str "alice")])]) }
  fetchJwks _ := .ok (.obj [])

/-- One sign-in has begun. -/
def begun : OidcDatabase where
  transactions := Dict.empty.insert "state" {
    nonceHash := "nonce"
    codeVerifierEncrypted := "verifier"
    returnTo := "/"
    expiresAt := 600 }
  trustedIssuers := Dict.empty.insert "https://idp" true

def callbackAt (now : Instant) (issuer : String) : OidcCall where
  now := now
  answers := issuing issuer
  operation := .callback "code" "state"

end Untangle
