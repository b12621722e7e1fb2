import Untangle.Correctness.Certificate
import Untangle.Lib.JsonDocument

/-!
# `Correctness.Tamper` — what an envelope proves about its certificate and its report

The issuer hashes the canonical text of a certificate and of the report it was made from. The envelope that it returns
verifies, another certificate under the same content hash does not, and neither does another report attached to the
certificate: the canonical text determines the document. One way in is left open. The issuer copies
`exceptions_by_reason` with `dict`, which turns a list of pairs into a dictionary whose keys can be numbers; those are
sorted as numbers when the hash is taken, and as texts once the envelope has been written to JSON and read back. So
the envelope survives its own text exactly if the two orders agree (`tamperEvident_iff`).
-/

namespace Untangle

open Lib Json

variable {H : Hashing} {U : Unicode} {repr : Json → String} {floatText : ℚ → String}

/-! ## The values of a certificate -/

theorem getAttr_eq_ok {v w default : Json} {key : String} (h : getAttr v key default = .ok w) :
    w = (v.get? key).getD default := by
  unfold getAttr at h
  split at h
  · exact (Except.ok.inj h).symm
  · cases h

theorem plain_getAttr {v w default : Json} {key : String} (h : Plain v) (hdefault : Plain default)
    (hget : getAttr v key default = .ok w) : Plain w := by
  rw [getAttr_eq_ok hget]
  exact h.getD key hdefault

/-- What a value of JSON yields when it is iterated over. -/
theorem plain_iterate {v : Json} {items : List Json} (h : Plain v) (hitems : iterate v = .ok items) :
    ∀ w ∈ items, Plain w := by
  intro w hw
  cases h with
  | arr h =>
      obtain rfl := Except.ok.inj hitems
      exact h w hw
  | str s =>
      obtain rfl := Except.ok.inj hitems
      obtain ⟨c, _, rfl⟩ := List.mem_map.mp hw
      exact .str _
  | obj h =>
      obtain rfl := Except.ok.inj hitems
      obtain ⟨p, _, rfl⟩ := List.mem_map.mp hw
      exact .str _
  | _ => cases hitems

/-! ## Dictionaries -/

theorem pairOf_plain {v : Json} {n : Nat} (h : Plain v) {key : DictKey} {w : Json}
    (hpair : pairOf (v, n) = .ok (key, w)) : Plain w := by
  unfold pairOf at hpair
  split at hpair
  · rename_i key' w' hitems
    obtain ⟨_, _, heq⟩ := map_eq_ok.mp hpair
    obtain rfl := (Prod.mk.inj heq).2
    exact plain_iterate h hitems w' (List.mem_cons_of_mem _ (List.mem_singleton_self w'))
  · cases hpair
  · cases hpair

/-- The entries of a dictionary have different keys, and values of the pairs. -/
theorem entriesOf_spec (pairs : List (DictKey × Json)) :
    ((entriesOf pairs).map fun p => normalKey p.1).Nodup ∧ ∀ p ∈ entriesOf pairs, ∃ q ∈ pairs, p.2 = q.2 := by
  unfold entriesOf
  generalize hd : Dict.gather (fun p : DictKey × Json => some (normalKey p.1))
    (fun p (o : Option (DictKey × Json)) => ((o.map Prod.fst).getD p.1, p.2)) pairs = d
  have hentry : ∀ p ∈ d.items, normalKey p.2.1 = p.1 ∧ ∃ q ∈ pairs, p.2.2 = q.2 := by
    intro p hp
    have hget := Dict.get?_of_mem hp
    rw [← hd] at hget
    refine Dict.forall_gather _ _ (P := fun k v => normalKey v.1 = k ∧ ∃ q ∈ pairs, v.2 = q.2) ?_ hget
    intro q hq k hk o ho
    refine ⟨?_, q, hq, rfl⟩
    cases o with
    | none => exact Option.some.inj hk
    | some v => exact (ho v rfl).1
  constructor
  · have hkeys : (d.items.map Prod.snd).map (fun p => normalKey p.1) = d.keys := by
      rw [List.map_map]
      exact List.map_congr_left fun p hp => (hentry p hp).1
    rw [hkeys]
    exact d.nodup_keys
  · intro p hp
    obtain ⟨e, he, rfl⟩ := List.mem_map.mp hp
    exact (hentry e he).2

/-- A dictionary of texts has the values of its entries. -/
theorem dictionary_values {entries : List (DictKey × Json)} {fields : List (String × Json)}
    (h : (entries.mapM fun p => (textKey? p.1).map fun key => (key, p.2)) = some fields) :
    ∀ f ∈ fields, ∃ p ∈ entries, f.2 = p.2 := by
  induction entries generalizing fields with
  | nil =>
      obtain rfl := Option.some.inj h
      exact fun f hf => absurd hf List.not_mem_nil
  | cons p entries ih =>
      rw [List.mapM_cons] at h
      obtain ⟨field, hfield, h⟩ := Option.bind_eq_some_iff.mp h
      obtain ⟨rest, hrest, h⟩ := Option.bind_eq_some_iff.mp h
      obtain ⟨_, _, rfl⟩ := Option.map_eq_some_iff.mp hfield
      obtain rfl := Option.some.inj h
      intro f hf
      rcases List.mem_cons.mp hf with rfl | hf
      · exact ⟨p, List.mem_cons_self, rfl⟩
      · obtain ⟨q, hq, heq⟩ := ih hrest f hf
        exact ⟨q, List.mem_cons_of_mem p hq, heq⟩

/-- A dictionary in memory: its keys are different, and its values are values of JSON. -/
structure PlainEntries (entries : List (DictKey × Json)) : Prop where
  nodup : (entries.map fun p => normalKey p.1).Nodup
  plain : ∀ p ∈ entries, Plain p.2

/-- **`dict` of a value of JSON** is an object, or a dictionary in memory. -/
theorem toDictionary_plain {v d : Json} (h : Plain v) (hd : toDictionary v = .ok d) :
    Plain d ∨ ∃ entries, d = .dict entries ∧ PlainEntries entries := by
  unfold toDictionary at hd
  split at hd
  · obtain rfl := Except.ok.inj hd
    exact Or.inl h
  · cases h
  · obtain ⟨items, hitems, hd⟩ := bind_eq_ok.mp hd
    obtain ⟨pairs, hpairs, hd⟩ := bind_eq_ok.mp hd
    obtain rfl := Except.ok.inj hd
    obtain ⟨hnd, hvalues⟩ := entriesOf_spec pairs
    have hplain : ∀ p ∈ entriesOf pairs, Plain p.2 := by
      intro p hp
      obtain ⟨⟨key, value⟩, hq, heq⟩ := hvalues p hp
      obtain ⟨⟨item, n⟩, hitem, hpair⟩ := exists_of_mem_mapM hpairs hq
      rw [heq]
      exact pairOf_plain (plain_iterate h hitems item (List.fst_mem_of_mem_zipIdx hitem)) hpair
    unfold dictionary
    split
    · rename_i fields hfields
      refine Or.inl (.obj fun f hf => ?_)
      obtain ⟨p, hp, heq⟩ := dictionary_values hfields f hf
      rw [heq]
      exact hplain p hp
    · exact Or.inr ⟨_, rfl, hnd, hplain⟩

/-- The texts of keys that can be sorted are different. -/
theorem PlainEntries.nodup_texts {entries : List (DictKey × Json)} (h : PlainEntries entries)
    (hfloat : FloatText floatText) (hsortable : sortableKeys (.dict entries) = true) :
    (entries.map fun p => keyText floatText p.1).Nodup := by
  rcases of_decide_eq_true hsortable with hone | hnumbers
  · cases entries with
    | nil => exact List.nodup_nil
    | cons p entries =>
        obtain rfl := List.length_eq_zero_iff.mp (Nat.le_zero.mp (Nat.le_of_succ_le_succ hone))
        exact List.nodup_singleton _
  · apply List.Nodup.map_on _ h.nodup.of_map
    intro p hp q hq htext
    have hkey := keyText_inj hfloat (List.all_eq_true.mp hnumbers p hp) (List.all_eq_true.mp hnumbers q hq) htext
    exact List.inj_on_of_nodup_map h.nodup hp hq (congrArg normalKey hkey)

/-! ## The certificate of a report -/

/-- `totals["exceptions_by_reason"]`, with the defaults that the issuer has for it. -/
def exceptionsByReasonOf (report : Json) : Json :=
  (((report.get? "totals").getD (.obj [])).get? "exceptions_by_reason").getD (.obj [])

/-- A pack that is found is named by strings. -/
theorem strings_of_resolved {pack : Json} {found : EvidencePack} (h : resolvePackProvenance pack = .ok found) :
    (pack.get "pack_id").asStr?.isSome = true ∧ (pack.get "version").asStr?.isSome = true ∧
      (pack.get "schema_version").asStr?.isSome = true := by
  unfold resolvePackProvenance at h
  dsimp only at h
  split at h
  · cases h
  · split at h
    · cases h
    · split at h
      · rename_i hid hversion hschema _
        rw [hid, hversion, hschema]
        exact ⟨rfl, rfl, rfl⟩
      · cases h

/-- A certificate names no pack, or one by strings. -/
theorem certificatePackValid_of_checked {cert schema pack : Json}
    (hschema : cert.get "certificate_schema_version" = schema) (hpack : cert.get "evidence_pack" = pack)
    (h : checkProvenance repr schema pack = .ok ()) : (certificatePackValid cert).2 = true := by
  unfold checkProvenance at h
  unfold certificatePackValid
  rw [hschema, hpack]
  dsimp only
  split at h
  · rename_i hnull
    split at h
    · rename_i hpacknull
      cases schema <;> cases hnull
      cases pack <;> cases hpacknull
      rfl
    · cases h
  · split at h
    · rename_i hversion
      split at h
      · cases h
      · split at h
        · rename_i found hfound
          obtain ⟨hid, hver, hsv⟩ := strings_of_resolved hfound
          rw [hversion, hid, hver, hsv]
          rfl
        · cases h
    · cases h

/-- **What the issuer writes**: values of the report and of its verification, with `dict` of the exceptions. -/
theorem buildCloseCertificate_eq_ok {report : Json} (hplain : Plain report) {body : List (String × Json)}
    (h : buildCloseCertificate U repr report = .ok body) :
    ∃ front d back schema pack, body = front ++ ("exceptions_by_reason", d) :: back ∧
      toDictionary (exceptionsByReasonOf report) = .ok d ∧ (∀ p ∈ front ++ back, Plain p.2) ∧
      "exceptions_by_reason" ∉ front.map Prod.fst ∧ "exceptions_by_reason" ∉ back.map Prod.fst ∧
      body.lookup "certificate_schema_version" = some schema ∧ body.lookup "evidence_pack" = some pack ∧
      body.lookup "report_sha256" = none ∧ checkProvenance repr schema pack = .ok () := by
  have hempty : Plain (.obj []) := .obj fun p hp => absurd hp List.not_mem_nil
  unfold buildCloseCertificate at h
  split at h
  · cases h
  simp only [bind_eq_ok] at h
  obtain ⟨records, hrecords, railCount, hrailCount, railPaise, hrailPaise, count, hcount, paise, hpaise, _, _,
    reconciled, hreconciled, reconciledPaise, _, _, _, unresolved, hunresolved, _, _, _, _, _, _, exceptions,
    hexceptions, byReason, hbyReason, d, hd, results, hresults, version, hversion, seed, hseed, pack, hpack, schema,
    hschema, _, hchecked, hbody⟩ := h
  obtain rfl := Except.ok.inj hbody
  obtain rfl := getAttr_eq_ok hbyReason
  have htotals := hplain.getD "totals" hempty
  have hconfig := hplain.getD "config" hempty
  have hcounts := plain_getAttr htotals hempty hrailCount
  have hroot := hplain.getD "audit_root" (.str "")
  refine ⟨_ :: _ :: _ :: _ :: _ :: _ :: _ :: _ :: _ :: _ :: _ :: [_], d, _, schema, pack, rfl, hd, ?_, ?_, ?_, rfl, rfl,
    rfl, hchecked⟩
  · have hend : ∀ p ∈ ([] : List (String × Json)), Plain p.2 := fun p hp => absurd hp List.not_mem_nil
    simp only [List.cons_append, List.nil_append, List.forall_mem_cons, plain_obj_iff]
    exact ⟨.str _, plain_getAttr hconfig .null hschema, plain_getAttr hconfig .null hpack,
      plain_getAttr htotals (.int 0) hrecords, plain_getAttr hcounts (.int 0) hcount, .str _,
      plain_getAttr htotals (.int 0) hreconciled, .str _, plain_getAttr htotals (.int 0) hunresolved, .str _, .str _,
      plain_getAttr htotals (.int 0) hexceptions, ⟨.int _, .int _, hend⟩, plain_getAttr hconfig (.str _) hversion,
      plain_getAttr hconfig (.int _) hseed, hroot, ⟨hroot, .bool _, .int _, .int _, hend⟩, hend⟩
  · simp
  · simp

/-- The certificate that is issued, as its fields. -/
theorem issueCertificate_eq_ok {report : Json} {envelope : List (String × Json)}
    (h : issueCertificate H U repr report = .ok envelope) :
    ∃ body cert, buildCloseCertificate U repr report = .ok body ∧ (∀ p ∈ body, sortableKeys p.2 = true) ∧
      cert = .obj (body ++ [("report_sha256", .str (H.sha256 (H.canonical report)))]) ∧
      envelope = [("certificate", cert), ("content_sha256", .str (H.sha256 (H.canonical cert))),
        ("signed", .bool false), ("note", .str certificateNote)] := by
  obtain ⟨body, hbody, h⟩ := bind_eq_ok.mp h
  dsimp only at h
  split at h
  · cases h
  · rename_i hsortable
    rw [Bool.not_eq_true', Bool.not_eq_false] at hsortable
    exact ⟨body, _, hbody, List.all_eq_true.mp hsortable, rfl, (Except.ok.inj h).symm⟩

/-! ## Verification -/

/-- What is assumed of SHA-256 where a document has been hashed: no other text has its hash. -/
def Unmatched (H : Hashing) (document : Json) : Prop :=
  ∀ text, H.sha256 text = H.sha256 (H.canonical document) → text = H.canonical document

/-- A certificate without its report is verified if the hash is its own and its pack is named as it should be. -/
theorem verifyCertificate_alone (H : Hashing) (U : Unicode) (repr : Json → String) {cert : Json}
    (hobj : cert.isObj = true) (hpack : (certificatePackValid cert).2 = true) (hash note : String) :
    ∃ v, verifyCertificate H U repr (.obj [("certificate", cert), ("content_sha256", .str hash),
        ("signed", .bool false), ("note", .str note)]) = .ok v ∧
      (v.ok = true ↔ hash = H.sha256 (H.canonical cert)) := by
  obtain ⟨v, hv, _, hok⟩ := verifyCertificate_eq H U repr (.obj [("certificate", cert),
    ("content_sha256", .str hash), ("signed", .bool false), ("note", .str note)]) rfl
  refine ⟨v, hv, ?_⟩
  have hcertificate := certificateOf_cons hobj [("content_sha256", .str hash), ("signed", .bool false),
    ("note", .str note)]
  have hreport : reportOf H U repr (.obj [("certificate", cert), ("content_sha256", .str hash),
      ("signed", .bool false), ("note", .str note)]) = ⟨none, true, none⟩ := by
    unfold reportOf
    rw [hcertificate, hpack]
    rfl
  rw [hreport, hcertificate] at hok
  rw [hok]
  constructor
  · rintro ⟨hhash, _⟩
    exact of_decide_eq_true hhash
  · intro hhash
    refine ⟨decide_eq_true hhash, rfl, rfl, ?_, ?_, rfl⟩
    · intro h
      cases h
    · intro p h
      cases h

/-- **Another certificate under the same content hash is refused.** -/
theorem refuses_certificate (hfloat : FloatText floatText) (hcanonical : H.canonical = canonicalText floatText)
    {cert payload : Json} (hfree : Unmatched H cert) (hcert : Writable floatText cert)
    (hwritable : Writable floatText (certificateOf payload))
    (hhash : payload.get "content_sha256" = .str (H.sha256 (H.canonical cert)))
    (hother : ¬ SameDocument floatText (certificateOf payload) cert) :
    ∃ v, verifyCertificate H U repr payload = .ok v ∧ v.ok = false := by
  have hobj : payload.isObj = true := by
    cases payload with
    | obj fields => rfl
    | dict entries => rfl
    | _ => cases hhash
  obtain ⟨v, hv, _, hok⟩ := verifyCertificate_eq H U repr payload hobj
  refine ⟨v, hv, Bool.eq_false_iff.mpr fun htrue => hother ?_⟩
  obtain ⟨hmatch, _⟩ := hok.mp htrue
  rw [hhash] at hmatch
  have htext := hfree _ (of_decide_eq_true hmatch).symm
  rw [hcanonical] at htext
  exact (canonicalText_inj hfloat hwritable hcert).mp htext

/-- A report of which the certificate has no digest is not bound to it. -/
theorem unbound_of_digest {cert report : Json} {packValid : Bool}
    (hdigest : (cert.get "report_sha256").isStr (H.sha256 (H.canonical report)) = false) :
    (verifyAttached H U repr cert report packValid).bindingValid = some false := by
  unfold verifyAttached
  rw [hdigest]
  dsimp only
  split
  · rfl
  · split
    · rfl
    · rfl

/-- **Another report attached to a certificate is refused**, with its binding. -/
theorem refuses_report (hfloat : FloatText floatText) (hcanonical : H.canonical = canonicalText floatText)
    {payload report report' : Json} (hfree : Unmatched H report) (hreport : Writable floatText report)
    (hkept : (payload.get "certificate").get "report_sha256" = .str (H.sha256 (H.canonical report)))
    (hattached : payload.get? "report" = some report') (hwritable : Writable floatText report')
    (hother : ¬ SameDocument floatText report' report) :
    ∃ v, verifyCertificate H U repr payload = .ok v ∧ v.reportBindingValid = some false ∧ v.ok = false := by
  have hobj : payload.isObj = true := by
    cases payload with
    | obj fields => rfl
    | _ => cases hattached
  have hcert : (payload.get "certificate").isObj = true := by
    cases hcase : payload.get "certificate" with
    | obj fields => rfl
    | dict entries => rfl
    | _ =>
        rw [hcase] at hkept
        cases hkept
  obtain ⟨v, hv, hbinding, hok⟩ := verifyCertificate_eq H U repr payload hobj
  have hunbound : (reportOf H U repr payload).bindingValid = some false := by
    unfold reportOf attachedReport
    rw [hattached, show certificateOf payload = payload.get "certificate" from if_pos hcert]
    dsimp only
    split
    · apply unbound_of_digest
      rw [hkept]
      refine decide_eq_false fun heq => hother ?_
      have htext := hfree _ heq.symm
      rw [hcanonical] at htext
      exact (canonicalText_inj hfloat hwritable hreport).mp htext
    · rfl
  refine ⟨v, hv, hbinding.trans hunbound, Bool.eq_false_iff.mpr fun htrue => ?_⟩
  exact (hok.mp htrue).2.2.2.1 hunbound

/-- The verifier has an answer for every payload. -/
theorem verifyCertificate_returns (payload : Json) :
    verifyCertificate H U repr payload = .error "payload is not a dict" ∨
      ∃ v, verifyCertificate H U repr payload = .ok v := by
  cases hobj : payload.isObj with
  | true =>
      obtain ⟨v, hv, _⟩ := verifyCertificate_eq H U repr payload hobj
      exact Or.inr ⟨v, hv⟩
  | false =>
      unfold verifyCertificate
      rw [hobj]
      exact Or.inl rfl

/-! ## The envelope -/

/-- **An envelope is tamper evident**: it verifies as it is and read back from its text, and no other certificate and no
    other report verifies in its place. The verifier has an answer for everything. -/
structure TamperEvident (H : Hashing) (U : Unicode) (repr : Json → String) (floatText : ℚ → String)
    (report envelope : Json) : Prop where
  verifies : ∃ v, verifyCertificate H U repr envelope = .ok v ∧ v.ok = true
  readBack : ∃ v, verifyCertificate H U repr (decoded floatText envelope) = .ok v ∧ v.ok = true
  otherCertificate : ∀ payload, Writable floatText (certificateOf payload) →
    payload.get "content_sha256" = envelope.get "content_sha256" →
    ¬ SameDocument floatText (certificateOf payload) (envelope.get "certificate") →
    ∃ v, verifyCertificate H U repr payload = .ok v ∧ v.ok = false
  otherReport : ∀ payload report', (payload.get "certificate").get "report_sha256" =
      (envelope.get "certificate").get "report_sha256" →
    payload.get? "report" = some report' → Writable floatText report' → ¬ SameDocument floatText report' report →
    ∃ v, verifyCertificate H U repr payload = .ok v ∧ v.reportBindingValid = some false ∧ v.ok = false
  answers : ∀ payload, verifyCertificate H U repr payload = .error "payload is not a dict" ∨
    ∃ v, verifyCertificate H U repr payload = .ok v

/-- The keys of a dictionary are in the same order as numbers and as texts. -/
def KeysInOrder (floatText : ℚ → String) : Json → Prop
  | .dict entries => ((entries.insertionSort fun p q => p.1.number?.getD 0 ≤ q.1.number?.getD 0).map fun p =>
      keyText floatText p.1).Pairwise (· ≤ ·)
  | _ => True

/-- A dictionary survives its text if its keys are in order; everything else survives it anyway. -/
theorem sameDocument_dictionary (hfloat : FloatText floatText) {v d : Json} (hplain : Plain v)
    (hd : toDictionary v = .ok d) (hsortable : sortableKeys d = true) :
    SameDocument floatText (decoded floatText d) d ↔ KeysInOrder floatText d := by
  rcases toDictionary_plain hplain hd with hd | ⟨entries, rfl, hentries⟩
  · rw [decoded_plain hd]
    cases hd <;> exact ⟨fun _ => trivial, fun _ => rfl⟩
  · exact sameDocument_dict hentries.plain (hentries.nodup_texts hfloat hsortable)

/-- A field of an object with another one replaced. -/
theorem get_replaced {front back : List (String × Json)} {key key' : String} (hne : key' ≠ key) (v w : Json) :
    (Json.obj (front ++ (key, v) :: back)).get key' = (Json.obj (front ++ (key, w) :: back)).get key' := by
  rw [get_obj, get_obj, get?_obj_append, get?_obj_append, get?_obj_cons, get?_obj_cons, if_neg hne, if_neg hne]

/-- A certificate for a report whose exceptions by reason are the dictionary `d`. -/
structure CertificateFor (H : Hashing) (floatText : ℚ → String) (report d cert : Json) : Prop where
  isObj : cert.isObj = true
  isObj_decoded : (decoded floatText cert).isObj = true
  packValid : (certificatePackValid cert).2 = true
  packValid_decoded : (certificatePackValid (decoded floatText cert)).2 = true
  digest : cert.get "report_sha256" = .str (H.sha256 (H.canonical report))
  writable : Writable floatText cert
  sameDocument : SameDocument floatText (decoded floatText cert) cert ↔ KeysInOrder floatText d

/-- **What is issued**: all but the exceptions by reason are values of JSON. -/
theorem issueCertificate_spec (hfloat : FloatText floatText) {report : Json} (hplain : Plain report)
    {envelope : List (String × Json)} (hissue : issueCertificate H U repr report = .ok envelope) :
    ∃ d cert, toDictionary (exceptionsByReasonOf report) = .ok d ∧ CertificateFor H floatText report d cert ∧
      envelope = [("certificate", cert), ("content_sha256", .str (H.sha256 (H.canonical cert))),
        ("signed", .bool false), ("note", .str certificateNote)] := by
  obtain ⟨body, cert, hbody, hsortable, hcert, henvelope⟩ := issueCertificate_eq_ok hissue
  obtain ⟨front, d, back, schema, pack, rfl, hd, hvalues, hfront, hback, hschema, hpack, hfree, hchecked⟩ :=
    buildCloseCertificate_eq_ok hplain hbody
  refine ⟨d, cert, hd, ?_, henvelope⟩
  have hempty : Plain (.obj []) := .obj fun p hp => absurd hp List.not_mem_nil
  have hraw : Plain (exceptionsByReasonOf report) := (hplain.getD "totals" hempty).getD "exceptions_by_reason" hempty
  have hinOrder := sameDocument_dictionary hfloat hraw hd
    (hsortable _ (List.mem_append_right _ List.mem_cons_self))
  have hfields : ∀ p ∈ front ++ back, (p.1, decoded floatText p.2) = p := fun p hp =>
    Prod.ext rfl (decoded_plain (hvalues p hp))
  have hget : ∀ key v, (front ++ ("exceptions_by_reason", d) :: back).lookup key = some v → cert.get key = v := by
    intro key v h
    rw [hcert, get_obj, get?_obj_append, show (Json.obj _).get? key = some v from h]
    rfl
  have hdigest : cert.get "report_sha256" = .str (H.sha256 (H.canonical report)) := by
    rw [hcert, get_obj, get?_obj_append, show (Json.obj _).get? "report_sha256" = none from hfree]
    rfl
  -- reading the certificate back changes the exceptions, and nothing else
  rw [List.append_assoc, List.cons_append] at hcert
  generalize hsha : back ++ [("report_sha256", Json.str (H.sha256 (H.canonical report)))] = after at hcert
  have hdecoded : decoded floatText cert =
      .obj (front ++ ("exceptions_by_reason", decoded floatText d) :: after) := by
    rw [hcert, decoded, decodedFields_eq, ← hsha, List.map_append, List.map_cons, List.map_append]
    rw [List.map_congr_left fun p hp => hfields p (List.mem_append_left _ hp), List.map_id',
      List.map_congr_left fun p hp => hfields p (List.mem_append_right _ hp), List.map_id']
    rfl
  have hkept : ∀ key, key ≠ "exceptions_by_reason" → (decoded floatText cert).get key = cert.get key := by
    intro key hne
    rw [hdecoded, hcert]
    exact get_replaced hne _ _
  have hafter : "exceptions_by_reason" ∉ after.map Prod.fst := by
    rw [← hsha, List.map_append, List.mem_append]
    rintro (h | h)
    · exact hback h
    · exact absurd (List.mem_singleton.mp h) (show "exceptions_by_reason" ≠ "report_sha256" by decide)
  constructor
  · rw [hcert]
    rfl
  · rw [hdecoded]
    rfl
  · exact certificatePackValid_of_checked (hget _ _ hschema) (hget _ _ hpack) hchecked
  · apply certificatePackValid_of_checked _ _ hchecked
    · rw [hkept _ (by decide), hget _ _ hschema]
    · rw [hkept _ (by decide), hget _ _ hpack]
  · exact hdigest
  · show Plain (decoded floatText cert)
    rw [hdecoded, plain_obj_iff]
    intro p hp
    rcases List.mem_append.mp hp with hp | hp
    · exact hvalues p (List.mem_append_left _ hp)
    · rcases List.mem_cons.mp hp with rfl | hp
      · rcases toDictionary_plain hraw hd with hd | ⟨entries, rfl, hentries⟩
        · exact hd.writable
        · exact writable_dict.mpr fun p hp => (hentries.plain p hp).writable
      · rw [← hsha] at hp
        rcases List.mem_append.mp hp with hp | hp
        · exact hvalues p (List.mem_append_right _ hp)
        · rw [List.mem_singleton.mp hp]
          exact .str _
  · rw [hdecoded, hcert, sameDocument_field hfront hafter, hinOrder]

/-- **When an envelope is tamper evident.** For every report that a certificate is issued for without a key, where no
    other text has the hash of the certificate's or of the report's: everything but the reading back holds, and that
    holds exactly if the keys of `dict(exceptions_by_reason)` are in the same order as numbers and as texts. -/
theorem tamperEvident_iff (H : Hashing) (U : Unicode) (repr : Json → String) (floatText : ℚ → String)
    (hfloat : FloatText floatText) (hcanonical : H.canonical = canonicalText floatText) {report : Json}
    (hplain : Plain report) {envelope : List (String × Json)} (hissue : issueCertificate H U repr report = .ok envelope)
    (hreport : Unmatched H report) (hcertificate : Unmatched H ((Json.obj envelope).get "certificate")) :
    TamperEvident H U repr floatText report (.obj envelope) ↔
      ∀ d, toDictionary (exceptionsByReasonOf report) = .ok d → KeysInOrder floatText d := by
  obtain ⟨d, cert, hd, hcert, rfl⟩ := issueCertificate_spec hfloat hplain hissue
  have hfree : Unmatched H cert := hcertificate
  obtain ⟨v, hv, hok⟩ := verifyCertificate_alone H U repr hcert.isObj hcert.packValid
    (H.sha256 (H.canonical cert)) certificateNote
  obtain ⟨w, hw, hok'⟩ := verifyCertificate_alone H U repr hcert.isObj_decoded
    hcert.packValid_decoded (H.sha256 (H.canonical cert)) certificateNote
  have hdecoded : decoded floatText (.obj [("certificate", cert), ("content_sha256", .str (H.sha256 (H.canonical cert))),
      ("signed", .bool false), ("note", .str certificateNote)]) =
        .obj [("certificate", decoded floatText cert), ("content_sha256", .str (H.sha256 (H.canonical cert))),
          ("signed", .bool false), ("note", .str certificateNote)] := rfl
  -- the read-back envelope verifies if the hash of its certificate is the one it carries
  have hreadBack : w.ok = true ↔ KeysInOrder floatText d := by
    rw [hok', ← hcert.sameDocument, hcanonical]
    have hwritable : Writable floatText (decoded floatText cert) := Plain.writable hcert.writable
    constructor
    · intro heq
      have htext := hfree _ (hcanonical ▸ heq.symm)
      rw [hcanonical] at htext
      exact (canonicalText_inj hfloat hwritable hcert.writable).mp htext
    · intro hsame
      rw [(canonicalText_inj hfloat hwritable hcert.writable).mpr hsame]
  constructor
  · intro h d' hd'
    obtain rfl := Except.ok.inj (hd.symm.trans hd')
    obtain ⟨w', hw', htrue⟩ := h.readBack
    rw [hdecoded, hw] at hw'
    obtain rfl := Except.ok.inj hw'
    exact hreadBack.mp htrue
  · intro h
    constructor
    · exact ⟨v, hv, hok.mpr rfl⟩
    · rw [hdecoded]
      exact ⟨w, hw, hreadBack.mpr (h d hd)⟩
    · intro payload hwritable hhash hother
      exact refuses_certificate hfloat hcanonical hfree hcert.writable hwritable hhash hother
    · intro payload report' hkept hattached hwritable hother
      exact refuses_report hfloat hcanonical hreport hplain.writable (hkept.trans hcert.digest) hattached hwritable
        hother
    · exact verifyCertificate_returns

/-! ## Two reports -/

/-- A text of fractions. -/
def fractionText (q : ℚ) : String := toString q.num ++ "." ++ toString q.den

theorem floatText_fractionText : FloatText fractionText := by
  have htext : ∀ q, (fractionText q).toList = (toString q.num).toList ++ '.' :: (toString q.den).toList := by
    intro q
    unfold fractionText
    rw [String.toList_append, String.toList_append, List.append_assoc]
    rfl
  constructor
  · intro q c hc
    rw [htext] at hc
    rcases List.mem_append.mp hc with hc | hc
    · exact isNumberChar_intText q.num c hc
    · rcases List.mem_cons.mp hc with rfl | hc
      · decide
      · exact isNumberChar_of_digit (isDigit_of_mem_toString hc)
  · intro q
    rw [htext]
    exact Or.inl (List.mem_append_right _ List.mem_cons_self)
  · intro q r h
    have hchars := congrArg String.toList h
    rw [htext, htext] at hchars
    have hpoint : ∀ i : ℤ, ∀ c ∈ (toString i).toList, (c != '.') = true := by
      intro i c hc
      rcases intText_chars hc with rfl | hdigit
      · decide
      · rw [bne_iff_ne]
        rintro rfl
        exact absurd hdigit (by decide)
    obtain ⟨hnum, hden⟩ := append_inj_of_run (hpoint q.num) (hpoint r.num) (by simp) (by simp) hchars
    exact Rat.ext (intText_inj hnum) (toString_nat_injective (List.cons.inj hden).2)

/-- A digest that tells two texts from each other and from all others. -/
def markedDigest (first second text : String) : String :=
  String.ofList (List.replicate 64 (if text = first then 'a' else if text = second then 'b' else 'c'))

def markedHashing (first second : String) : Hashing where
  canonical := canonicalText fractionText
  sha256 := markedDigest first second
  length_sha256 := fun text => by simp [markedDigest]
  hex_sha256 := by
    intro text c hc
    unfold markedDigest at hc
    rw [String.toList_ofList] at hc
    rw [List.eq_of_mem_replicate hc]
    split
    · decide
    · split <;> decide

theorem markedDigest_first (first second : String) :
    markedDigest first second first = String.ofList (List.replicate 64 'a') := by
  unfold markedDigest
  rw [if_pos rfl]

theorem unmatched_markedHashing {first second : String} {document : Json}
    (h : canonicalText fractionText document = first ∨ canonicalText fractionText document = second) :
    Unmatched (markedHashing first second) document := by
  intro text hdigest
  have hmark : (if text = first then 'a' else if text = second then 'b' else 'c') =
      if canonicalText fractionText document = first then 'a'
      else if canonicalText fractionText document = second then 'b' else 'c' := by
    have hlist := String.ofList_injective hdigest
    exact (List.replicate_right_inj (by decide)).mp hlist
  show text = canonicalText fractionText document
  rcases h with h | h
  · rw [if_pos h] at hmark
    split at hmark
    · rename_i heq
      rw [heq, h]
    · split at hmark <;> exact absurd hmark (by decide)
  · split at hmark
    · rename_i heq
      split at hmark
      · rename_i hfirst
        rw [heq, hfirst]
      · exact absurd hmark (by decide)
    · split at hmark
      · rename_i heq
        rw [heq, h]
      · split at hmark <;> exact absurd hmark (by decide)

/-- The text of a value, `None` for the absent one. -/
def writtenRepr : Json → String
  | .null => "None"
  | v => String.ofList (print fractionText v)

/-- The text of a report's certificate, the report having the first mark. -/
def issuedText (report : Json) : String :=
  ((buildCloseCertificate asciiUnicode writtenRepr report).map fun body => canonicalText fractionText
    (.obj (body ++ [("report_sha256", .str (String.ofList (List.replicate 64 'a')))]))).toOption.getD ""

/-- The hashing that marks a report and its certificate. -/
def reportHashing (report : Json) : Hashing := markedHashing (canonicalText fractionText report) (issuedText report)

theorem unmatched_report (report : Json) : Unmatched (reportHashing report) report :=
  unmatched_markedHashing (Or.inl rfl)

theorem unmatched_certificate {report : Json} {envelope : List (String × Json)}
    (hissue : issueCertificate (reportHashing report) asciiUnicode writtenRepr report = .ok envelope) :
    Unmatched (reportHashing report) ((Json.obj envelope).get "certificate") := by
  obtain ⟨body, cert, hbody, _, rfl, rfl⟩ := issueCertificate_eq_ok hissue
  have hmark : (reportHashing report).sha256 ((reportHashing report).canonical report) =
      String.ofList (List.replicate 64 'a') := markedDigest_first _ _
  refine unmatched_markedHashing (Or.inr ?_)
  rw [get_obj, get?_obj_cons, if_pos rfl, Option.getD_some, hmark]
  unfold issuedText
  rw [hbody]
  rfl

/-- A report that says nothing, with its envelope. -/
theorem tamperEvident_empty : ∃ envelope,
    issueCertificate (reportHashing (.obj [])) asciiUnicode writtenRepr (.obj []) = .ok envelope ∧
    TamperEvident (reportHashing (.obj [])) asciiUnicode writtenRepr fractionText (.obj []) (.obj envelope) := by
  have hrun : (issueCertificate (reportHashing (.obj [])) asciiUnicode writtenRepr (.obj [])).toOption.isSome = true := by
    decide +kernel
  cases hissue : issueCertificate (reportHashing (.obj [])) asciiUnicode writtenRepr (.obj []) with
  | error e =>
      rw [hissue] at hrun
      cases hrun
  | ok envelope =>
      refine ⟨envelope, rfl, (tamperEvident_iff (reportHashing (.obj [])) asciiUnicode writtenRepr fractionText
        floatText_fractionText rfl (.obj fun p hp => absurd hp List.not_mem_nil) hissue (unmatched_report _)
        (unmatched_certificate hissue)).mpr ?_⟩
      intro d hd
      obtain rfl := Except.ok.inj hd
      trivial

/-- Exceptions by reason as a list of pairs, with numbers for reasons. -/
def numberedReport : Json :=
  .obj [("totals", .obj [("exceptions_by_reason", .arr [.arr [.int 2, .int 1], .arr [.int 10, .int 1]])])]

theorem plain_numberedReport : Plain numberedReport := by
  unfold numberedReport
  simp only [plain_obj_iff, plain_arr_iff, List.forall_mem_cons]
  simp [Plain.int]

/-- **An envelope that does not survive its own text**: 2 comes before 10 as a number, and after it as a text. -/
theorem numbered_not_readBack : Plain numberedReport ∧ FloatText fractionText ∧
    (reportHashing numberedReport).canonical = canonicalText fractionText ∧
    Unmatched (reportHashing numberedReport) numberedReport ∧
    ∃ envelope, issueCertificate (reportHashing numberedReport) asciiUnicode writtenRepr numberedReport =
        .ok envelope ∧
      Unmatched (reportHashing numberedReport) ((Json.obj envelope).get "certificate") ∧
      ∃ v, verifyCertificate (reportHashing numberedReport) asciiUnicode writtenRepr
        (decoded fractionText (.obj envelope)) = .ok v ∧ v.ok = false := by
  refine ⟨plain_numberedReport, floatText_fractionText, rfl, unmatched_report _, ?_⟩
  have hrun : (issueCertificate (reportHashing numberedReport) asciiUnicode writtenRepr
      numberedReport).toOption.isSome = true := by decide +kernel
  cases hissue : issueCertificate (reportHashing numberedReport) asciiUnicode writtenRepr numberedReport with
  | error e =>
      rw [hissue] at hrun
      cases hrun
  | ok envelope =>
      have hfree := unmatched_certificate hissue
      obtain ⟨d, cert, hd, hcert, rfl⟩ := issueCertificate_spec floatText_fractionText plain_numberedReport hissue
      have hcertificate : certificateOf (decoded fractionText (.obj [("certificate", cert),
          ("content_sha256", .str ((reportHashing numberedReport).sha256 ((reportHashing numberedReport).canonical cert))),
          ("signed", .bool false), ("note", .str certificateNote)])) = decoded fractionText cert :=
        certificateOf_cons hcert.isObj_decoded _
      refine ⟨_, rfl, hfree, refuses_certificate floatText_fractionText rfl hfree hcert.writable ?_ rfl ?_⟩
      · rw [hcertificate]
        exact Plain.writable hcert.writable
      · -- the same document would have its keys in order
        rw [hcertificate]
        intro hsame
        have hinOrder := hcert.sameDocument.mp hsame
        obtain rfl : .dict [(.int 2, .int 1), (.int 10, .int 1)] = d := Except.ok.inj hd
        revert hinOrder
        unfold KeysInOrder
        decide +kernel

end Untangle
