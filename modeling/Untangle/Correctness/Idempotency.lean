import Untangle.Correctness.Dates
import Untangle.Persistence.Idempotency

/-!
# `Correctness.Idempotency` — which requests a request hash tells apart

The text that is hashed is a code: three digests of fixed length behind fixed labels, and the canonical text of four
parameters. Without a collision two requests have the same hash exactly when they agree in what goes into it
(`requestHash_eq_iff`). The other parameters and the names of the files do not, so a request that differs from the
recorded one in these only is answered with the recorded job (`conflict_reported_iff`).
-/

namespace Untangle

open Lib

variable {sha : Sha256} {isPrintable : Char → Bool} {q q' : JobRequest}

/-! ## The parameters -/

theorem encodeUtf8_injective : Function.Injective encodeUtf8 := by
  intro s t h
  unfold encodeUtf8 at h
  have hdata : s.toUTF8.data = t.toUTF8.data := Array.toList_inj.mp h
  exact String.toByteArray_inj.mp (ByteArray.ext hdata)

/-- The text of an optional parameter. -/
def optionalChars : Option String → List Char
  | none => "null".toList
  | some text => quote text

theorem print_optionalText (floatText : ℚ → String) (o : Option String) :
    Json.print floatText (optionalText o) = optionalChars o := by
  cases o <;> rfl

theorem sortKeys_optionalText (o : Option String) : Json.sortKeys (optionalText o) = optionalText o := by
  cases o <;> rfl

/-- Where an optional parameter ends is decided by the parameter. -/
theorem optionalChars_inj {o o' : Option String} {x y : List Char} (h : optionalChars o ++ x = optionalChars o' ++ y) :
    o = o' ∧ x = y := by
  cases o with
  | none =>
      cases o' with
      | none => exact ⟨rfl, List.append_cancel_left h⟩
      | some t => exact absurd (List.cons.inj h).1 (by decide)
  | some s =>
      cases o' with
      | none => exact absurd (List.cons.inj h).1 (by decide)
      | some t =>
          obtain ⟨rfl, hend⟩ := quote_inj h
          exact ⟨rfl, hend⟩

theorem isoDate_injective : Function.Injective fun d : CalendarDate => isoDate d.1 := by
  intro d d' h
  apply Subtype.ext
  have hle : d.1 ≤ d'.1 := (isoDate_le_iff d.2 d'.2).mp h.le
  have hge : d'.1 ≤ d.1 := (isoDate_le_iff d'.2 d.2).mp h.ge
  exact le_antisymm hle hge

/-- The parameters in the order of their keys. -/
theorem canonicalText_extraParams (q : JobRequest) :
    (Json.canonicalText (fun _ => "") (.obj q.extraParams)).toList =
      '{' :: (quote "bank_adapter_id" ++ ':' :: (optionalChars q.bankAdapterId ++
        ',' :: (quote "period_end" ++ ':' :: (optionalChars (q.reportingPeriodEnd.map fun d => isoDate d.1) ++
        ',' :: (quote "period_start" ++ ':' :: (optionalChars (q.reportingPeriodStart.map fun d => isoDate d.1) ++
        ',' :: (quote "rule_pack_id" ++ ':' :: (optionalChars q.rulePackId ++ ['}']))))))))  := by
  have hsorted : Json.sortKeys (.obj q.extraParams) =
      .obj [("bank_adapter_id", optionalText q.bankAdapterId),
        ("period_end", optionalText (q.reportingPeriodEnd.map fun d => isoDate d.1)),
        ("period_start", optionalText (q.reportingPeriodStart.map fun d => isoDate d.1)),
        ("rule_pack_id", optionalText q.rulePackId)] := by
    unfold JobRequest.extraParams
    rw [Json.sortKeys, Json.sortFields_eq]
    simp only [List.map_cons, List.map_nil, sortKeys_optionalText, List.insertionSort_cons, List.insertionSort_nil,
      List.orderedInsert_nil, List.orderedInsert_cons]
    simp only [show ¬ ("rule_pack_id" : String) ≤ "bank_adapter_id" by decide,
      show ¬ ("period_end" : String) ≤ "bank_adapter_id" by decide, show ("period_end" : String) ≤ "rule_pack_id" by decide,
      show ¬ ("period_start" : String) ≤ "bank_adapter_id" by decide,
      show ¬ ("period_start" : String) ≤ "period_end" by decide,
      show ("period_start" : String) ≤ "rule_pack_id" by decide, if_true, if_false, List.orderedInsert_cons]
  unfold Json.canonicalText
  rw [hsorted, String.toList_ofList]
  simp only [Json.print, Json.printFields, Json.printMoreFields, print_optionalText]

/-- **The text determines the parameters.** -/
theorem extraParams_inj (h : Json.canonicalText (fun _ => "") (.obj q.extraParams) =
      Json.canonicalText (fun _ => "") (.obj q'.extraParams)) :
    q.bankAdapterId = q'.bankAdapterId ∧ q.reportingPeriodEnd = q'.reportingPeriodEnd ∧
      q.reportingPeriodStart = q'.reportingPeriodStart ∧ q.rulePackId = q'.rulePackId := by
  have htext := congrArg String.toList h
  rw [canonicalText_extraParams, canonicalText_extraParams] at htext
  obtain ⟨hadapter, hrest⟩ := optionalChars_inj (List.cons.inj (List.append_cancel_left (List.cons.inj htext).2)).2
  obtain ⟨hend, hrest⟩ :=
    optionalChars_inj (List.cons.inj (List.append_cancel_left (List.cons.inj hrest).2)).2
  obtain ⟨hstart, hrest⟩ :=
    optionalChars_inj (List.cons.inj (List.append_cancel_left (List.cons.inj hrest).2)).2
  obtain ⟨hpack, _⟩ :=
    optionalChars_inj (List.cons.inj (List.append_cancel_left (List.cons.inj hrest).2)).2
  exact ⟨hadapter, Option.map_injective isoDate_injective hend, Option.map_injective isoDate_injective hstart, hpack⟩

/-! ## The hash -/

/-- Two requests agree in what goes into the hash. -/
structure SameHashed (q q' : JobRequest) : Prop where
  bank : q.bankBytes = q'.bankBytes
  recon : q.reconBytes = q'.reconBytes
  ledger : q.ledgerBytes = q'.ledgerBytes
  periodStart : q.reportingPeriodStart = q'.reportingPeriodStart
  periodEnd : q.reportingPeriodEnd = q'.reportingPeriodEnd
  rulePack : q.rulePackId = q'.rulePackId
  bankAdapter : q.bankAdapterId = q'.bankAdapterId

/-- Two requests agree in what else is recorded. -/
structure SameUnhashed (isPrintable : Char → Bool) (q q' : JobRequest) : Prop where
  engine : q.recordedEngineVersion = q'.recordedEngineVersion
  schema : q.schemaVersion = q'.schemaVersion
  rulePackVersion : q.rulePackVersion = q'.rulePackVersion
  bankAdapterVersion : q.bankAdapterVersion = q'.bankAdapterVersion
  bankFile : cleanFilename isPrintable q.bankFilename = cleanFilename isPrintable q'.bankFilename
  reconFile : cleanFilename isPrintable q.reconFilename = cleanFilename isPrintable q'.reconFilename
  ledgerFile : cleanFilename isPrintable q.ledgerFilename = cleanFilename isPrintable q'.ledgerFilename

/-- What is hashed for a request. -/
def preimageOf (sha : Sha256) (q : JobRequest) : List UInt8 :=
  requestPreimage sha q.bankBytes q.reconBytes q.ledgerBytes q.extraParams

/-- The texts that are hashed for a request. -/
def hashedTexts (sha : Sha256) (q : JobRequest) : Set (List UInt8) :=
  {q.bankBytes, q.reconBytes, q.ledgerBytes, preimageOf sha q}

/-- No two of the texts hashed for the two requests have one digest. -/
def NoCollision (sha : Sha256) (q q' : JobRequest) : Prop :=
  Set.InjOn sha.digest (hashedTexts sha q ∪ hashedTexts sha q')

theorem digest_append_inj {bytes bytes' x y : List UInt8}
    (h : sha.digest bytes ++ x = sha.digest bytes' ++ y) : sha.digest bytes = sha.digest bytes' ∧ x = y :=
  List.append_inj h ((sha.length_digest bytes).trans (sha.length_digest bytes').symm)

/-- What is hashed determines the digests of the files and the parameters. -/
theorem preimageOf_inj (h : preimageOf sha q = preimageOf sha q') :
    (sha.digest q.bankBytes = sha.digest q'.bankBytes ∧ sha.digest q.reconBytes = sha.digest q'.reconBytes ∧
      sha.digest q.ledgerBytes = sha.digest q'.ledgerBytes) ∧
    Json.canonicalText (fun _ => "") (.obj q.extraParams) = Json.canonicalText (fun _ => "") (.obj q'.extraParams) := by
  unfold preimageOf requestPreimage at h
  obtain ⟨hbank, h⟩ := digest_append_inj (List.append_cancel_left h)
  obtain ⟨hrecon, h⟩ := digest_append_inj (List.append_cancel_left h)
  obtain ⟨hledger, h⟩ := digest_append_inj (List.append_cancel_left h)
  have hparams : encodeUtf8 "PARAMS:" ++ encodeUtf8 (Json.canonicalText (fun _ => "") (.obj q.extraParams)) =
      encodeUtf8 "PARAMS:" ++ encodeUtf8 (Json.canonicalText (fun _ => "") (.obj q'.extraParams)) := h
  exact ⟨⟨hbank, hrecon, hledger⟩, encodeUtf8_injective (List.append_cancel_left hparams)⟩

/-- The two hexadecimal digits of a byte determine it. -/
theorem hexText_injective : Function.Injective hexText := by
  intro bytes bytes' h
  have htext := String.ofList_injective h
  clear h
  induction bytes generalizing bytes' with
  | nil =>
      cases bytes' with
      | nil => rfl
      | cons b bytes' => exact absurd htext (by simp)
  | cons b bytes ih =>
      cases bytes' with
      | nil => exact absurd htext (by simp)
      | cons b' bytes' =>
          rw [List.flatMap_cons, List.flatMap_cons] at htext
          obtain ⟨hhigh, htext⟩ := List.cons.inj htext
          obtain ⟨hlow, htext⟩ := List.cons.inj htext
          have hb := b.toNat_lt
          have hb' := b'.toNat_lt
          have hhigh := digitChar_injOn _ (by omega) _ (by omega) hhigh
          have hlow := digitChar_injOn _ (by omega) _ (by omega) hlow
          have hbyte : b = b' := UInt8.toNat_inj.mp (by omega)
          rw [hbyte, ih htext]

theorem SameHashed.requestHash (h : SameHashed q q') : q.requestHash sha = q'.requestHash sha := by
  have hparams : q.extraParams = q'.extraParams := by
    unfold JobRequest.extraParams
    rw [h.periodStart, h.periodEnd, h.rulePack, h.bankAdapter]
  unfold JobRequest.requestHash
  rw [h.bank, h.recon, h.ledger, hparams]

/-- **Which requests have the same hash**, as long as nothing collides. -/
theorem requestHash_eq_iff (hcollision : NoCollision sha q q') :
    q.requestHash sha = q'.requestHash sha ↔ SameHashed q q' := by
  constructor
  · intro h
    have hdigest : sha.digest (preimageOf sha q) = sha.digest (preimageOf sha q') := hexText_injective h
    have hpreimage : preimageOf sha q = preimageOf sha q' :=
      hcollision (by simp [hashedTexts]) (by simp [hashedTexts]) hdigest
    obtain ⟨⟨hbank, hrecon, hledger⟩, htext⟩ := preimageOf_inj hpreimage
    obtain ⟨hadapter, hend, hstart, hpack⟩ := extraParams_inj htext
    exact
      { bank := hcollision (by simp [hashedTexts]) (by simp [hashedTexts]) hbank
        recon := hcollision (by simp [hashedTexts]) (by simp [hashedTexts]) hrecon
        ledger := hcollision (by simp [hashedTexts]) (by simp [hashedTexts]) hledger
        periodStart := hstart
        periodEnd := hend
        rulePack := hpack
        bankAdapter := hadapter }
  · exact SameHashed.requestHash

/-! ## What is recorded -/

theorem SameHashed.submittedRun (h : SameHashed q q') (h' : SameUnhashed isPrintable q q') :
    q.submittedRun sha isPrintable = q'.submittedRun sha isPrintable := by
  unfold JobRequest.submittedRun fileMetadata
  rw [h.bank, h.recon, h.ledger, h.periodStart, h.periodEnd, h.rulePack, h.bankAdapter, h'.engine, h'.schema,
    h'.rulePackVersion, h'.bankAdapterVersion, h'.bankFile, h'.reconFile, h'.ledgerFile]

theorem sameUnhashed_of_submittedRun (h : q.submittedRun sha isPrintable = q'.submittedRun sha isPrintable) :
    SameUnhashed isPrintable q q' := by
  have hfiles := congrArg (fun run => run.files.map UploadedFileMetadata.originalFilename) h
  simp only [JobRequest.submittedRun, fileMetadata, List.map_cons, List.map_nil, List.cons.injEq, and_true] at hfiles
  exact
    { engine := congrArg SubmittedRun.engineVersion h
      schema := congrArg SubmittedRun.schemaVersion h
      rulePackVersion := congrArg SubmittedRun.rulePackVersion h
      bankAdapterVersion := congrArg SubmittedRun.bankAdapterVersion h
      bankFile := hfiles.1
      reconFile := hfiles.2.1
      ledgerFile := hfiles.2.2 }

/-- A re-use of a key for a request that would be recorded differently: the hashes differ, and the answer is a conflict. -/
structure ConflictReported (sha : Sha256) (isPrintable : Char → Bool) (q q' : JobRequest) : Prop where
  hashes : q.submittedRun sha isPrintable ≠ q'.submittedRun sha isPrintable → q.requestHash sha ≠ q'.requestHash sha
  answer : q.submittedRun sha isPrintable ≠ q'.submittedRun sha isPrintable → ∀ responseJson,
    (q'.Ordered → submissionAnswer sha (some (q.record sha responseJson)) q' = .error conflictingRequest) ∧
    ∀ reply, submissionAnswer sha (some (q.record sha responseJson)) q' ≠ .ok (some reply)

theorem submissionAnswer_of_ne (h : q.requestHash sha ≠ q'.requestHash sha) (responseJson : Json) :
    (q'.Ordered → submissionAnswer sha (some (q.record sha responseJson)) q' = .error conflictingRequest) ∧
      ∀ reply, submissionAnswer sha (some (q.record sha responseJson)) q' ≠ .ok (some reply) := by
  unfold submissionAnswer
  by_cases hordered : q'.Ordered
  · rw [if_neg (not_not.mpr hordered)]
    have hconflict : (if (q.record sha responseJson).requestHash ≠ q'.requestHash sha then
        (.error conflictingRequest : Except SubmissionError (Option (Json × Nat)))
        else .ok (some ((q.record sha responseJson).responseJson, (q.record sha responseJson).responseStatusCode))) =
        .error conflictingRequest := if_pos h
    exact ⟨fun _ => hconflict, fun reply heq => by cases hconflict.symm.trans heq⟩
  · rw [if_pos hordered]
    exact ⟨fun hyes => absurd hyes hordered, fun reply heq => by cases heq⟩

/-- **When a conflicting re-use is reported**: the requests differ in what is hashed, or in nothing that is recorded. -/
theorem conflict_reported_iff (sha : Sha256) (isPrintable : Char → Bool) (q q' : JobRequest)
    (hcollision : NoCollision sha q q') :
    ConflictReported sha isPrintable q q' ↔ (¬ SameHashed q q' ∨ SameUnhashed isPrintable q q') := by
  constructor
  · intro h
    by_cases hhashed : SameHashed q q'
    · right
      by_contra hother
      have hrecorded : q.submittedRun sha isPrintable ≠ q'.submittedRun sha isPrintable :=
        fun heq => hother (sameUnhashed_of_submittedRun heq)
      exact h.hashes hrecorded hhashed.requestHash
    · exact Or.inl hhashed
  · intro h
    have hdiffers : q.submittedRun sha isPrintable ≠ q'.submittedRun sha isPrintable →
        q.requestHash sha ≠ q'.requestHash sha := by
      intro hrecorded heq
      have hhashed := (requestHash_eq_iff hcollision).mp heq
      rcases h with hno | hother
      · exact hno hhashed
      · exact hrecorded (hhashed.submittedRun hother)
    exact ⟨hdiffers, fun hrecorded responseJson => submissionAnswer_of_ne (hdiffers hrecorded) responseJson⟩

/-! ### One rule pack in two versions -/

/-- A submission of three short files under a version of the narration pack. -/
def packRequest (version : String) : JobRequest where
  bankBytes := encodeUtf8 "bank"
  reconBytes := encodeUtf8 "recon"
  ledgerBytes := encodeUtf8 "ledger"
  rulePackId := some "narration"
  rulePackVersion := some version

/-- The SHA-256 digests of the texts that are hashed for these requests. -/
def packDigests : List (List UInt8 × List UInt8) :=
  [(encodeUtf8 "bank", [67, 129, 220, 42, 177, 66, 133, 22, 12, 128, 134, 89, 174, 224, 5, 213, 18, 85, 173, 215, 38, 75,
      49, 141, 7, 199, 65, 114, 146, 199, 68, 44]),
    (encodeUtf8 "recon", [107, 125, 144, 33, 153, 233, 96, 239, 105, 144, 81, 164, 143, 239, 18, 20, 49, 149, 23, 214,
      190, 73, 141, 231, 104, 241, 220, 138, 154, 49, 234, 56]),
    (encodeUtf8 "ledger", [254, 20, 1, 11, 79, 232, 51, 3, 133, 47, 4, 103, 201, 25, 239, 154, 124, 160, 137, 185, 30,
      150, 227, 170, 215, 212, 38, 221, 135, 7, 146, 151])]

/-- SHA-256 on the three files, and on the text made of their digests. -/
def packSha : Sha256 where
  digest := fun bytes =>
    match packDigests.find? fun p => p.1 = bytes ∧ p.2.length = 32 with
    | some p => p.2
    | none => [172, 189, 187, 49, 170, 250, 175, 144, 115, 35, 26, 183, 1, 159, 169, 64, 164, 90, 83, 238, 29, 37, 126,
        114, 90, 95, 131, 240, 131, 48, 183, 237]
  length_digest := by
    intro bytes
    split
    · rename_i p hp
      have hfound := List.find?_some hp
      exact (of_decide_eq_true hfound).2
    · rfl

/-- The second version is recorded differently, and answered with the job of the first. -/
theorem versions_replayed :
    (packRequest "1.0.0").submittedRun packSha (fun _ => true) ≠ (packRequest "2.0.0").submittedRun packSha (fun _ => true) ∧
      (packRequest "1.0.0").requestHash packSha = (packRequest "2.0.0").requestHash packSha ∧
      (∀ responseJson, submissionAnswer packSha (some ((packRequest "1.0.0").record packSha responseJson))
        (packRequest "2.0.0") = .ok (some (responseJson, 202))) ∧
      ¬ ConflictReported packSha (fun _ => true) (packRequest "1.0.0") (packRequest "2.0.0") := by
  have hrecorded : (packRequest "1.0.0").submittedRun packSha (fun _ => true) ≠
      (packRequest "2.0.0").submittedRun packSha (fun _ => true) := by
    intro h
    have hversion := congrArg SubmittedRun.rulePackVersion h
    exact absurd hversion (show (some "1.0.0" : Option String) ≠ some "2.0.0" by decide)
  have hhash : (packRequest "1.0.0").requestHash packSha = (packRequest "2.0.0").requestHash packSha := rfl
  have hordered : (packRequest "2.0.0").Ordered := by decide
  refine ⟨hrecorded, hhash, fun responseJson => ?_, fun h => h.hashes hrecorded hhash⟩
  unfold submissionAnswer
  rw [if_neg (not_not.mpr hordered)]
  exact if_neg (not_not.mpr hhash)

theorem noCollision_pack : NoCollision packSha (packRequest "1.0.0") (packRequest "2.0.0") := by
  have htexts : ∀ s ∈ [encodeUtf8 "bank", encodeUtf8 "recon", encodeUtf8 "ledger", preimageOf packSha (packRequest "1.0.0")],
      ∀ t ∈ [encodeUtf8 "bank", encodeUtf8 "recon", encodeUtf8 "ledger", preimageOf packSha (packRequest "1.0.0")],
        packSha.digest s = packSha.digest t → s = t := by decide +kernel
  have hmem : ∀ s, s ∈ hashedTexts packSha (packRequest "1.0.0") ∪ hashedTexts packSha (packRequest "2.0.0") →
      s ∈ [encodeUtf8 "bank", encodeUtf8 "recon", encodeUtf8 "ledger", preimageOf packSha (packRequest "1.0.0")] := by
    intro s hs
    have hone : s ∈ hashedTexts packSha (packRequest "1.0.0") := hs.elim id id
    rcases hone with rfl | rfl | rfl | rfl
    · exact List.mem_cons_self
    · exact List.mem_cons_of_mem _ List.mem_cons_self
    · exact List.mem_cons_of_mem _ (List.mem_cons_of_mem _ List.mem_cons_self)
    · exact List.mem_cons_of_mem _ (List.mem_cons_of_mem _ (List.mem_cons_of_mem _ List.mem_cons_self))
  intro s hs t ht h
  exact htexts s (hmem s hs) t (hmem t ht) h

theorem conflict_reported_iff_pack :
    NoCollision packSha (packRequest "1.0.0") (packRequest "2.0.0") ∧
      (ConflictReported packSha (fun _ => true) (packRequest "1.0.0") (packRequest "2.0.0") ↔
        (¬ SameHashed (packRequest "1.0.0") (packRequest "2.0.0") ∨
          SameUnhashed (fun _ => true) (packRequest "1.0.0") (packRequest "2.0.0"))) :=
  ⟨noCollision_pack, conflict_reported_iff packSha (fun _ => true) (packRequest "1.0.0") (packRequest "2.0.0")
    noCollision_pack⟩

end Untangle
