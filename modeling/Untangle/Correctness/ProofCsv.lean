import Untangle.Correctness.Verifier
import Untangle.Engine.ProofCsv
import Untangle.Lib.JsonText

/-!
# `Correctness.ProofCsv` — what a reader of the CSV gets

A line of the CSV is the record of the neutralized texts of a packet's values, written by the rules of the format, so
reading the text back gives these records. A text is the value itself, or the value after an apostrophe; the same holds
of numbers, so a number below zero is not read back as one.
-/

namespace Untangle

open Lib

/-! ## The guard -/

theorem startsFormula_neutralized (s : String) : startsFormula (neutralized s) = false := by
  unfold neutralized
  split
  · unfold startsFormula
    rw [String.toList_append]
    rfl
  · rename_i h
    exact Bool.eq_false_of_not_eq_true h

theorem neutralized_of_not {s : String} (h : startsFormula s = false) : neutralized s = s := by
  unfold neutralized
  rw [h]
  rfl

/-- A field is written by the rules of the format. -/
theorem csvField_toList (text : String) : (csvField text).toList = Csv.encodeField (neutralized text).toList := by
  have hspecial : (fun c : Char => decide (c ∈ [',', '"', '\n', '\r'])) = fun c => !Csv.isTextData c := by
    funext c
    unfold Csv.isTextData
    rw [Bool.eq_iff_iff]
    simp only [decide_eq_true_eq, List.mem_cons, List.not_mem_nil, Bool.not_eq_true', decide_eq_false_iff_not]
    tauto
  unfold csvField Csv.encodeField
  dsimp only
  rw [hspecial, ← List.not_all_eq_any_not]
  cases (neutralized text).toList.all Csv.isTextData with
  | true => rfl
  | false =>
      rw [Bool.not_false, if_pos rfl, if_neg Bool.false_ne_true]
      simp only [String.toList_append, String.toList_ofList]
      rfl

/-! ## Numbers -/

section Integers

variable (D : DecimalDigits) {i : ℤ}

/-- The text of an integer is read as that integer. -/
theorem readInt_toString (h : tooLong i = false) : readInt D (toString i) = some i := by
  have hspace : ∀ c ∈ (toString i).toList, isSpace c = false := by
    intro c hc
    rcases intText_chars hc with rfl | hdigit
    · decide
    · exact isSpace_digit hdigit
  have hdigits : ∀ d ∈ (toString i.natAbs).toList, d.isDigit = true := fun _ => isDigit_of_mem_toString
  have hgroups : (toString i.natAbs).toList.splitOn '_' = [(toString i.natAbs).toList] :=
    List.splitOn_eq_singleton fun hmem => absurd (hdigits _ hmem) (by decide)
  have hlength : (toString i.natAbs).toList.length ≤ maxStrDigits := by
    rw [Nat.toString_eq_repr, Nat.toList_repr]
    exact (Nat.length_toDigits_le_iff (by decide) (by decide)).mpr (not_le.mp (of_decide_eq_false h))
  have hread : readGroups D (toString i.natAbs).toList = some i.natAbs := by
    unfold readGroups
    have hall : ∀ g ∈ [(toString i.natAbs).toList], g ≠ [] ∧ g.all D.isDecimal := by
      intro g hg
      rw [List.mem_singleton.mp hg]
      exact ⟨toString_ne_nil _, List.all_eq_true.mpr fun d hd => DecimalDigits.isDecimal_of_isDigit (hdigits d hd)⟩
    rw [hgroups, List.flatten_singleton, if_pos ⟨hall, hlength⟩, DecimalDigits.number_of_isDigit hdigits,
      ofDigitChars_toString]
  have hsigned := @readSign_signed _ [] hdigits (toString_ne_nil i.natAbs) (decide (i < 0))
  simp only [List.append_nil, decide_eq_true_eq] at hsigned
  unfold readInt
  rw [strip_eq_self hspace, toList_toString_int, hsigned]
  dsimp only
  rw [hread, Option.map_some]
  refine congrArg some ?_
  simp only [decide_eq_true_eq]
  split
  · omega
  · omega

/-- A formula can start with the sign of an integer, and with nothing else of it. -/
theorem startsFormula_int : startsFormula (toString i) = decide (i < 0) := by
  unfold startsFormula
  rw [toList_toString_int]
  by_cases hneg : i < 0
  · rw [if_pos hneg, decide_eq_true hneg]
    rfl
  · rw [if_neg hneg, decide_eq_false hneg, List.nil_append]
    obtain ⟨c, cs, hcs⟩ := List.exists_cons_of_ne_nil (toString_ne_nil i.natAbs)
    have hdigit : c.isDigit = true := isDigit_of_mem_toString (n := i.natAbs) (by rw [hcs]; exact List.mem_cons_self)
    rw [hcs]
    show formulaStart c = false
    unfold formulaStart
    rw [decide_eq_false_iff_not]
    intro hstart
    revert hdigit
    simp only [List.mem_cons, List.not_mem_nil, or_false] at hstart
    rcases hstart with rfl | rfl | rfl | rfl | rfl | rfl | rfl <;> decide

end Integers

/-- The text shows the number: it is read as it, and it starts with a sign if the number is below zero. -/
structure ShowsNumber (text : String) (q : ℚ) : Prop where
  reads : readFloat text = some (Float64.ofRat q)
  sign : startsFormula text = decide (q < 0)

/-- What the field of a value is: the text itself or the text after an apostrophe, and for a number the text of that
number, after an apostrophe if it is below zero. -/
inductive FieldOf (D : DecimalDigits) : Json → String → Prop
  | str (s : String) : FieldOf D (.str s) (if startsFormula s then "'" ++ s else s)
  | bool (b : Bool) : FieldOf D (.bool b) (if b then "True" else "False")
  | int {i : ℤ} {text : String} (reads : readInt D text = some i) :
      FieldOf D (.int i) (if i < 0 then "'" ++ text else text)
  | float {q : ℚ} {text : String} (reads : readFloat text = some (Float64.ofRat q)) :
      FieldOf D (.float q) (if q < 0 then "'" ++ text else text)

/-! ## A row -/

section Rows

variable (D : DecimalDigits) (U : Unicode) (floatText : ℚ → String)

/-- A value with a text: no container, and a float only if its text shows it. -/
inductive PlainValue : Json → Prop
  | str (s : String) : PlainValue (.str s)
  | bool (b : Bool) : PlainValue (.bool b)
  | int (i : ℤ) : PlainValue (.int i)
  | float {q : ℚ} (shows : ShowsNumber (floatText q) q) : PlainValue (.float q)

variable {floatText}

theorem fieldOf_strValue {v : Json} (h : PlainValue floatText v) (hshort : ∀ i, v = .int i → tooLong i = false) :
    ∃ text, strValue U floatText v = some text ∧ FieldOf D v (neutralized text) := by
  cases h with
  | str s => exact ⟨s, rfl, FieldOf.str s⟩
  | bool b =>
      refine ⟨if b then "True" else "False", rfl, ?_⟩
      have hplain : neutralized (if b then "True" else "False") = if b then "True" else "False" := by
        cases b <;> decide
      rw [hplain]
      exact FieldOf.bool b
  | int i =>
      have hlong := hshort i rfl
      refine ⟨toString i, ?_, ?_⟩
      · show (if tooLong i then none else some (toString i)) = _
        rw [hlong]
        rfl
      · unfold neutralized
        rw [startsFormula_int]
        simp only [decide_eq_true_eq]
        exact FieldOf.int (readInt_toString D hlong)
  | float shows =>
      rename_i q
      refine ⟨floatText q, rfl, ?_⟩
      unfold neutralized
      rw [shows.sign]
      simp only [decide_eq_true_eq]
      exact FieldOf.float shows.reads

end Rows

/-! ## The row of a packet -/

/-- The signals of the ties are those of the evidence with a label. -/
theorem packetTies_signals (evidence : List EvidenceItem) :
    (packetTies evidence).mapM tieSignal =
      some ((evidence.filter fun e => (tieLabels.lookup e.signal).isSome).map EvidenceItem.signal) := by
  induction evidence with
  | nil => rfl
  | cons e evidence ih =>
      unfold packetTies at ih ⊢
      cases hlabel : tieLabels.lookup e.signal with
      | none =>
          rw [List.filterMap_cons_none (by rw [hlabel]; rfl), List.filter_cons_of_neg (by rw [hlabel]; decide)]
          exact ih
      | some label =>
          rw [List.filterMap_cons_some (by rw [hlabel]; rfl), List.filter_cons_of_pos (by rw [hlabel]; rfl),
            List.mapM_cons, ih]
          rfl

/-- What stands on the line of a packet. -/
theorem csvRow_proofPacket (U : Unicode) (pack : NarrationEvidencePack) (line : BankCreditLine) (a : RailAttribution)
    (sids : List String) (rejected : Option (List RejectedMatch)) (rec : Option ReconciliationResult) (fee : String) :
    csvRow (proofPacket line a (packetProof U pack line a sids rejected) rec fee) =
      some [.str a.lineKey, .str (isoDate line.valueDate), .str (proofInr line.amountPaise), .str line.narration,
        .str (line.bankRef.getD ""), .str a.rail, .str a.tier, .float (roundTo 3 a.confidence),
        .str (String.intercalate "; "
          ((a.evidence.filter fun e => (tieLabels.lookup e.signal).isSome).map EvidenceItem.signal)),
        .bool rec.isSome, .int (rec.elim 0 fun r => r.coveredEntityIds.length : Nat),
        rec.elim (.str "") fun r => .int r.residualPaise, rec.elim (.str "") fun r => .bool r.balanced, .str fee] := by
  have hties : ((packetProof U pack line a sids rejected).get? "ties").bind Json.asArr? =
      some (packetTies a.evidence) := by
    unfold packetProof
    simp [Json.asArr?]
  have hsettlement : settlementOrEmpty (proofPacket line a (packetProof U pack line a sids rejected) rec fee) =
      rec.elim (.obj []) packetSettlement := by
    cases rec <;> rfl
  unfold csvRow
  rw [hsettlement]
  unfold proofPacket
  cases rec with
  | none => simp [packetVerdict, hties, packetTies_signals, valueLength]
  | some r => simp [packetVerdict, hties, packetTies_signals, packetSettlement, valueLength]

section Packets

variable {U : Unicode} {digest : RowSignature → String} {pack : NarrationEvidencePack} {rows : List ReconRow}
  {floatText : ℚ → String}

/-- **The line of a packet** has a value in every column, and each of them has a text. -/
theorem csvRow_packet {lines : LinesByKey} {recs : Dict String ReconciliationResult}
    {rejected : Option (List RejectedMatch)} {a : RailAttribution} {packet : Json}
    (h : packetStep U digest pack rows lines recs rejected a = .ok (some packet))
    (hshows : ShowsNumber (floatText (roundTo 3 a.confidence)) (roundTo 3 a.confidence)) :
    ∃ row, csvRow packet = some row ∧ row.length = csvColumns.length ∧ ∀ v ∈ row, PlainValue floatText v := by
  have hpacket : ∃ line sids rec fee, packet = proofPacket line a (packetProof U pack line a sids rejected) rec fee := by
    cases hline : lines.dict.get? a.lineKey with
    | none =>
        unfold packetStep at h
        rw [hline] at h
        split at h <;> cases h
    | some line =>
        obtain ⟨hyes, hno⟩ := packetStep_eq_ok hline h
        by_cases hpacketed : Packeted a
        · obtain ⟨sids, fee, heq⟩ := hyes hpacketed
          exact ⟨line, sids, _, fee, Option.some.inj heq⟩
        · cases hno hpacketed
  obtain ⟨line, sids, rec, fee, rfl⟩ := hpacket
  refine ⟨_, csvRow_proofPacket U pack line a sids rejected rec fee, rfl, ?_⟩
  have hresidual : PlainValue floatText (rec.elim (.str "") fun r => .int r.residualPaise) := by
    cases rec with
    | none => exact .str _
    | some r => exact .int _
  have hbalanced : PlainValue floatText (rec.elim (.str "") fun r => .bool r.balanced) := by
    cases rec with
    | none => exact .str _
    | some r => exact .bool _
  simp only [List.forall_mem_cons, List.not_mem_nil, false_implies, implies_true, and_true]
  exact ⟨.str _, .str _, .str _, .str _, .str _, .str _, .str _, .float hshows, .str _, .bool _, .int _, hresidual,
    hbalanced, .str _⟩

end Packets

/-! ## The text -/

section Text

variable (D : DecimalDigits) (U : Unicode) {floatText : ℚ → String}

/-- A record of the text, for the values of a row. -/
def RecordOf (row : List Json) (record : List String) : Prop :=
  record.length = 14 ∧ List.Forall₂ (FieldOf D) row record ∧ ∀ field ∈ record, startsFormula field = false

theorem intercalate_fields (texts : List String) :
    (String.intercalate "," (texts.map csvField)).toList =
      Csv.encodeRecord ((texts.map neutralized).map String.toList) := by
  unfold Csv.encodeRecord
  rw [String.toList_intercalate, List.map_map, List.map_map, List.map_map]
  refine congrArg (List.intercalate [',']) (List.map_congr_left fun text _ => ?_)
  exact csvField_toList text

/-- A line is the record of its row. -/
theorem csvLine_record {packet : Json} {row : List Json} (hrow : csvRow packet = some row)
    (hlength : row.length = csvColumns.length) (hplain : ∀ v ∈ row, PlainValue floatText v)
    (hshort : ∀ i, Json.int i ∈ row → tooLong i = false) :
    ∃ line record, csvLine U floatText packet = some line ∧
      line.toList = Csv.encodeRecord (record.map String.toList) ∧ RecordOf D row record := by
  have htexts : ∀ v ∈ row, ∃ text, strValue U floatText v = some text ∧ FieldOf D v (neutralized text) := by
    intro v hv
    exact fieldOf_strValue D U (hplain v hv) fun i hi => hshort i (hi ▸ hv)
  obtain ⟨texts, hfields⟩ := exists_forall₂ htexts
  refine ⟨String.intercalate "," (texts.map csvField), texts.map neutralized, ?_, intercalate_fields texts, ?_, ?_, ?_⟩
  · unfold csvLine
    rw [hrow, Option.bind_eq_bind, Option.bind_some, mapM_eq_some.mpr (hfields.imp fun _ _ h => h.1)]
    rfl
  · rw [List.length_map, ← hfields.length_eq, hlength]
    rfl
  · exact List.forall₂_map_right_iff.mpr (hfields.imp fun _ _ h => h.2)
  · intro field hfield
    obtain ⟨text, _, rfl⟩ := List.mem_map.mp hfield
    exact startsFormula_neutralized text

/-- The text of lines is the text of their records. -/
theorem intercalate_lines {lines : List String} {records : List (List String)}
    (h : List.Forall₂ (fun line record => line.toList = Csv.encodeRecord (record.map String.toList)) lines records)
    (hne : lines ≠ []) :
    (String.intercalate "\n" lines ++ "\n").toList =
      Csv.encode (records.map fun record => record.map String.toList) := by
  rw [String.toList_append, String.toList_intercalate]
  induction h with
  | nil => exact absurd rfl hne
  | cons hline hrest ih =>
      rename_i line record lines records
      unfold Csv.encode at ih ⊢
      rw [List.map_cons, List.map_cons, List.flatMap_cons, ← hline]
      cases hrest with
      | nil =>
          rw [List.map_nil, List.intercalate_singleton, List.map_nil, List.flatMap_nil, List.append_nil]
          rfl
      | cons hnext hrest =>
          rw [← ih (List.cons_ne_nil _ _), List.map_cons, List.intercalate_cons_cons]
          simp only [List.append_assoc]
          rfl

theorem header_toList : (String.intercalate "," csvColumns).toList =
    Csv.encodeRecord (csvColumns.map String.toList) := by
  have hplain : ∀ column ∈ csvColumns, Csv.encodeField column.toList = column.toList := by decide +kernel
  unfold Csv.encodeRecord
  rw [String.toList_intercalate, List.map_map]
  exact congrArg (List.intercalate [',']) (List.map_congr_left fun column h => (hplain column h).symm)

/-- The lines are the records of the rows, in their order. -/
theorem csvLines_records {packets : List Json} {values : List (List Json)}
    (hvalues : List.Forall₂ (fun packet row => csvRow packet = some row ∧ row.length = csvColumns.length ∧
      ∀ v ∈ row, PlainValue floatText v) packets values)
    (hshort : ∀ row ∈ values, ∀ i, Json.int i ∈ row → tooLong i = false) :
    ∃ texts records, List.Forall₂ (fun packet text => csvLine U floatText packet = some text) packets texts ∧
      List.Forall₂ (fun text record => text.toList = Csv.encodeRecord (record.map String.toList)) texts records ∧
      List.Forall₂ (RecordOf D) values records ∧ ∀ record ∈ records, record ≠ [] := by
  induction hvalues with
  | nil => exact ⟨[], [], .nil, .nil, .nil, fun _ h => absurd h List.not_mem_nil⟩
  | cons hrow hrest ih =>
      rename_i packet row packets values
      obtain ⟨texts, records, htexts, hlines, hrecords, hne⟩ := ih fun r hr => hshort r (List.mem_cons_of_mem _ hr)
      obtain ⟨hcells, hlength, hplain⟩ := hrow
      obtain ⟨text, record, htext, hline, hrecord⟩ :=
        csvLine_record D U hcells hlength hplain (hshort row List.mem_cons_self)
      have hfields : record ≠ [] := List.ne_nil_of_length_pos (hrecord.1 ▸ Nat.succ_pos 13)
      exact ⟨text :: texts, record :: records, .cons htext htexts, .cons hline hlines, .cons hrecord hrecords,
        List.forall_mem_cons.mpr ⟨hfields, hne⟩⟩

/-- **What is read back from the CSV of packets.** Under the header stands one record of fourteen fields for every
    packet, in their order. A text field is its value, after an apostrophe exactly if a formula could start with it; a
    number is read back from its field if it is not below zero, and otherwise from what follows the apostrophe. No
    field starts a formula. -/
theorem proof_csv_decodes {digest : RowSignature → String} {pack : NarrationEvidencePack} {rows : List ReconRow}
    {lines : List BankCreditLine} {attributions : List RailAttribution} {reconciliations : List ReconciliationResult}
    {rejected : Option (List RejectedMatch)} {packets : List Json}
    (hbuilt : buildProofPackets U digest pack rows lines attributions reconciliations rejected = .ok packets)
    (hshows : ∀ a ∈ attributions, ShowsNumber (floatText (roundTo 3 a.confidence)) (roundTo 3 a.confidence)) :
    ∃ values, List.Forall₂ (fun packet row => csvRow packet = some row) packets values ∧
      ((∀ row ∈ values, ∀ i, Json.int i ∈ row → tooLong i = false) →
        ∃ text records, proofPacketsToCsv U floatText packets = some text ∧
          Csv.parse text = some (csvColumns :: records) ∧ List.Forall₂ (RecordOf D) values records) := by
  have hrows : ∀ packet ∈ packets, ∃ row, csvRow packet = some row ∧ row.length = csvColumns.length ∧
      ∀ v ∈ row, PlainValue floatText v := by
    intro packet hpacket
    obtain ⟨a, ha, hstep⟩ := (mem_buildProofPackets hbuilt).1 packet hpacket
    exact csvRow_packet hstep (hshows a ha)
  obtain ⟨values, hvalues⟩ := exists_forall₂ hrows
  refine ⟨values, hvalues.imp fun _ _ h => h.1, fun hshort => ?_⟩
  obtain ⟨texts, records, htexts, hlines, hrecords, hne⟩ := csvLines_records D U hvalues hshort
  refine ⟨String.intercalate "\n" (String.intercalate "," csvColumns :: texts) ++ "\n", records, ?_, ?_, hrecords⟩
  · unfold proofPacketsToCsv
    rw [mapM_eq_some.mpr htexts]
    rfl
  · have hall : ∀ record ∈ csvColumns :: records, record ≠ [] := List.forall_mem_cons.mpr ⟨by decide, hne⟩
    have htext := intercalate_lines (.cons header_toList hlines) (List.cons_ne_nil _ _)
    rw [← Csv.parse_encode (List.cons_ne_nil csvColumns records) hall, ← htext, String.ofList_toList]

end Text

/-! ## A credit that covers less than its settlement -/

/-- A credit that equals a settlement net, with quotes and a comma in its narration. -/
def quotedCredit : BankCreditLine := creditLine "-L1" "NEFT \"RAZORPAY\", SETTLEMENT" 100

def quotedAttribution : RailAttribution :=
  { provenAttribution quotedCredit with evidence := [⟨"amount_corr", "equals the net of setl_1", 9 / 10⟩] }

def quotedReconciliation (residual : ℤ) : ReconciliationResult where
  lineKey := "-L1"
  coveredEntityIds := [("payment", "pay_1")]
  coveredNetPaise := 105
  creditAmountPaise := 100
  residualPaise := residual
  balanced := false

def quotedPackets (residual : ℤ) : Except ValueError (List Json) :=
  buildProofPackets asciiUnicode RowSignature.entityId defaultNarrationPack [] [quotedCredit] [quotedAttribution]
    [quotedReconciliation residual] none

theorem showsNumber_confidence : ShowsNumber "0.9" (roundTo 3 quotedAttribution.confidence) := by
  have hround : roundTo 3 quotedAttribution.confidence = 9 / 10 := by decide +kernel
  rw [hround]
  exact ⟨by decide +kernel, by decide +kernel⟩

theorem proof_csv_decodes_quoted : ∃ packets, quotedPackets (-5) = .ok packets ∧
    ∃ values, List.Forall₂ (fun packet row => csvRow packet = some row) packets values ∧
      ((∀ row ∈ values, ∀ i, Json.int i ∈ row → tooLong i = false) →
        ∃ text records, proofPacketsToCsv asciiUnicode (fun _ => "0.9") packets = some text ∧
          Csv.parse text = some (csvColumns :: records) ∧ List.Forall₂ (RecordOf asciiDigits) values records) := by
  obtain ⟨packets, hpackets⟩ : ∃ packets, quotedPackets (-5) = .ok packets := ⟨_, rfl⟩
  refine ⟨packets, hpackets, proof_csv_decodes asciiDigits asciiUnicode hpackets ?_⟩
  intro a ha
  rw [List.mem_singleton.mp ha]
  exact showsNumber_confidence

def quotedCsv (residual : ℤ) : Option String :=
  (quotedPackets residual).toOption.bind (proofPacketsToCsv asciiUnicode fun _ => "0.9")

/-- The text of one packet, for the texts of its values, and what is read back from it. -/
theorem csv_of_texts {U : Unicode} {floatText : ℚ → String} {packet : Json} {row : List Json} {texts : List String}
    (hrow : csvRow packet = some row) (htexts : row.mapM (strValue U floatText) = some texts) (hne : texts ≠ []) :
    ∃ text, proofPacketsToCsv U floatText [packet] = some text ∧
      text.toList = Csv.encode ([csvColumns, texts.map neutralized].map fun record => record.map String.toList) ∧
      Csv.parse text = some [csvColumns, texts.map neutralized] := by
  have hline : csvLine U floatText packet = some (String.intercalate "," (texts.map csvField)) := by
    unfold csvLine
    rw [hrow, Option.bind_eq_bind, Option.bind_some, htexts]
    rfl
  have htext := intercalate_lines (.cons header_toList (.cons (intercalate_fields texts) .nil)) (List.cons_ne_nil _ _)
  refine ⟨_, ?_, htext, ?_⟩
  · unfold proofPacketsToCsv
    rw [mapM_eq_some.mpr (.cons hline .nil)]
    rfl
  · have hall : ∀ record ∈ [csvColumns, texts.map neutralized], record ≠ [] := by
      simp only [List.forall_mem_cons, List.not_mem_nil, false_implies, implies_true, and_true]
      exact ⟨by decide, fun h => hne (List.map_eq_nil_iff.mp h)⟩
    rw [← Csv.parse_encode (List.cons_ne_nil csvColumns [texts.map neutralized]) hall, ← htext, String.ofList_toList]

/-- The texts of the values of the packet. -/
def quotedTexts : List String :=
  ["-L1", "2024-04-24", "₹1.00", "NEFT \"RAZORPAY\", SETTLEMENT", "", "razorpay_settlement", "A", "0.9", "amount_corr",
    "True", "1", "-5", "False", "₹0.00"]

theorem quotedPackets_texts : ∃ packet row, quotedPackets (-5) = .ok [packet] ∧ csvRow packet = some row ∧
    row.mapM (strValue asciiUnicode fun _ => "0.9") = some quotedTexts :=
  ⟨_, _, rfl, rfl, by decide +kernel⟩

/-- A residual below zero is read back as a text that is no number, and an integer that has no text is not written at
    all. The records end with a line feed alone. -/
theorem proof_csv_not_same_number :
    ((quotedCsv (-5)).map fun text => ((Csv.parse text).map fun records => records.map fun record => record[11]?,
      text.toList.contains '\r')) = some (some [some "residual_paise", some "'-5"], false) ∧
      readInt asciiDigits "'-5" = none ∧ readFloat "'-5" = none ∧ quotedCsv (10 ^ 4300) = none := by
  refine ⟨?_, by decide +kernel, by decide +kernel, by decide +kernel⟩
  obtain ⟨packet, row, hpackets, hrow, htexts⟩ := quotedPackets_texts
  obtain ⟨text, hcsv, htext, hparse⟩ := csv_of_texts hrow htexts (List.cons_ne_nil _ _)
  have hquoted : quotedCsv (-5) = some text := by
    unfold quotedCsv
    rw [hpackets]
    exact hcsv
  rw [hquoted, Option.map_some, hparse, htext]
  decide +kernel

end Untangle
