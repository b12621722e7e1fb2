import Mathlib.Data.List.Perm.Basic
import Mathlib.Data.List.TakeWhile
import Untangle.Correctness.BankAdapters
import Untangle.Lib.Occurrences
import Untangle.Lib.Printed

/-!
# `Correctness.LineKeys` — statement rows and line keys

Every record with content becomes one line, in order. Its key is a content hash, and lines of one hash are numbered in
a second pass (`Lib.labels`). A hash has no `#`, so the keys are the names of the occurrences of the hashes: they are
distinct, and reordering the records reorders them (`line_keys_one_to_one`). Two contents that join to one payload are
numbered like two lines of one content.
-/

namespace Untangle

open Lib

/-! ## Keys -/

/-- A key without the number of its occurrence. -/
def baseOf (key : String) : String := String.ofList (key.toList.takeWhile (· ≠ '#'))

/-- A line under its key without the number of its occurrence. -/
def BankCreditLine.unnumbered (line : BankCreditLine) : BankCreditLine := { line with key := baseOf line.key }

/-- The key of an occurrence. -/
def keyOfLabel : String × Option Nat → String
  | (key, none) => key
  | (key, some n) => key ++ "#" ++ toString n

/-- A key without a number. -/
def Unmarked (key : String) : Prop := '#' ∉ key.toList

theorem baseOf_unmarked {key : String} (h : Unmarked key) : baseOf key = key := by
  have hall : ∀ c ∈ key.toList, decide (c ≠ '#') = true := by
    intro c hc
    exact decide_eq_true fun hmark => h (hmark ▸ hc)
  unfold baseOf
  rw [List.takeWhile_eq_self_iff.mpr hall, String.ofList_toList]

/-- The base of an occurrence's key. -/
theorem baseOf_keyOfLabel {label : String × Option Nat} (h : Unmarked label.1) :
    baseOf (keyOfLabel label) = label.1 := by
  obtain ⟨key, _ | n⟩ := label
  · exact baseOf_unmarked h
  · have hall : ∀ c ∈ key.toList, decide (c ≠ '#') = true := by
      intro c hc
      exact decide_eq_true fun hmark => h (hmark ▸ hc)
    have hmark : "#".toList = ['#'] := by decide
    have htext : (keyOfLabel (key, some n)).toList = key.toList ++ '#' :: (toString n).toList := by
      unfold keyOfLabel
      dsimp only
      rw [String.append_assoc, String.toList_append, String.toList_append, hmark, List.singleton_append]
    unfold baseOf
    rw [htext, List.takeWhile_append_of_pos hall, List.takeWhile_cons_of_neg (by decide), List.append_nil,
      String.ofList_toList]

theorem keyOfLabel_inj {label label' : String × Option Nat} (h : Unmarked label.1) (h' : Unmarked label'.1)
    (heq : keyOfLabel label = keyOfLabel label') : label = label' := by
  have hbase : label.1 = label'.1 := by
    rw [← baseOf_keyOfLabel h, ← baseOf_keyOfLabel h', heq]
  obtain ⟨key, number⟩ := label
  obtain ⟨key', number'⟩ := label'
  obtain rfl : key = key' := hbase
  -- a numbered key is not its own base
  have hmarked : ∀ n : Nat, ¬ Unmarked (keyOfLabel (key, some n)) := by
    intro n hn
    refine hn ?_
    unfold keyOfLabel
    rw [String.toList_append, String.toList_append]
    exact List.mem_append_left _ (List.mem_append_right _ (by decide))
  cases number with
  | none =>
      cases number' with
      | none => rfl
      | some n' => exact absurd (heq ▸ h) (hmarked n')
  | some n =>
      cases number' with
      | none => exact absurd (heq ▸ h') (hmarked n)
      | some n' =>
          have hpush : key ++ "#" = key.push '#' := String.toList_injective (by
            rw [String.toList_append, String.toList_push]
            rfl)
          have htext : key.push '#' ++ toString n = key.push '#' ++ toString n' := by
            rw [← hpush]
            exact heq
          rw [(number_suffix_inj (by decide) htext).2]

/-! ## The second pass -/

/-- **The second pass gives every line the key of its occurrence**, ... -/
theorem keys_disambiguate (seen : String → Nat) (lines : List BankCreditLine) (counters : Dict String Nat) :
    (disambiguate seen counters lines).map BankCreditLine.key =
      (number (fun key => decide (1 < seen key)) (fun key => (counters.get? key).getD 0)
        (lines.map BankCreditLine.key)).map keyOfLabel := by
  induction lines generalizing counters with
  | nil => rfl
  | cons ln lines ih =>
      unfold disambiguate
      rw [List.map_cons]
      unfold number
      by_cases hseen : 1 < seen ln.key
      · have hcounters : (fun key => ((counters.insert ln.key ((counters.get? ln.key).getD 0 + 1)).get? key).getD 0) =
            Function.update (fun key => (counters.get? key).getD 0) ln.key ((counters.get? ln.key).getD 0 + 1) := by
          funext key
          rw [Dict.get?_insert, Function.update_apply]
          split <;> rfl
        rw [if_pos hseen, if_pos (decide_eq_true hseen), List.map_cons, List.map_cons, ih, hcounters]
        rfl
      · rw [if_neg hseen, if_neg fun h => hseen (of_decide_eq_true h), List.map_cons, List.map_cons, ih]
        rfl

/-- ... and nothing else. -/
theorem unnumbered_disambiguate (seen : String → Nat) {lines : List BankCreditLine}
    (hbase : ∀ ln ∈ lines, Unmarked ln.key) (counters : Dict String Nat) :
    (disambiguate seen counters lines).map BankCreditLine.unnumbered = lines := by
  induction lines generalizing counters with
  | nil => rfl
  | cons ln lines ih =>
      have hhead : Unmarked ln.key := hbase ln List.mem_cons_self
      have htail : ∀ ln' ∈ lines, Unmarked ln'.key := fun ln' h => hbase ln' (List.mem_cons_of_mem _ h)
      unfold disambiguate
      split
      · have hkey : ∀ n, baseOf (keyOfLabel (ln.key, some n)) = ln.key := fun n => baseOf_keyOfLabel hhead
        rw [List.map_cons, ih htail]
        unfold BankCreditLine.unnumbered
        exact congrArg (fun key => { ln with key } :: lines) (hkey _)
      · rw [List.map_cons, ih htail]
        unfold BankCreditLine.unnumbered
        rw [baseOf_unmarked hhead]

/-! ## The first pass -/

/-- The records with content. -/
def dataRows (rows : List (List String × Nat)) : List (List String) :=
  (rows.map Prod.fst).filter fun row => ¬ row.all fun x => strip x = ""

section Rows

variable (H : Hashing) (D : DecimalDigits) (U : Unicode)

/-- The line that a record says, wherever it stands. -/
def LineOf (mapped : List String) (refCol : Option String) (row : List String) (line : BankCreditLine) : Prop :=
  ∀ startLine, parseRow H D U mapped refCol startLine row = .ok line

/-- The place of a cell is said in errors only. -/
theorem parseDirectionAmount_ctx {raw : String} {column : Column} {ctx : String} {paise : ℤ}
    (h : parseDirectionAmount D U raw column ctx = .ok paise) (ctx' : String) :
    parseDirectionAmount D U raw column ctx' = .ok paise := by
  rcases parseDirectionAmount_cases D U raw column ctx with ⟨⟨message, hinput⟩, _⟩ | ⟨text, htext, hsigned, heq⟩
  · rw [h] at hinput
    cases hinput
  · rcases parseDirectionAmount_cases D U raw column ctx' with ⟨_, hall⟩ | ⟨text', htext', _, heq'⟩
    · rw [hall text htext] at hsigned
      cases hsigned
    · obtain rfl : text = text' := Option.some.inj (htext.symm.trans htext')
      rw [heq] at h
      rw [heq']
      cases hnumeral : textNumeral D text with
      | none =>
          obtain ⟨message, hinput⟩ := rupeesToPaise_none D U hnumeral ctx
          rw [h] at hinput
          cases hinput
      | some x =>
          rw [rupeesToPaise_some D U hnumeral, mapError_eq_ok] at h ⊢
          exact h

theorem parseDate_ctx {raw ctx : String} {d : Date} (h : parseDate D U raw ctx = .ok d) (ctx' : String) :
    parseDate D U raw ctx' = .ok d := by
  unfold parseDate at h ⊢
  dsimp only at h ⊢
  cases hd : (dateFormats.findSome? fun fmt => strptime D fmt.1 fmt.2 (strip raw).toList).or
      (dateFromIsoformat (strip raw).toList) with
  | none =>
      rw [hd] at h
      cases h
  | some d' =>
      rw [hd] at h
      exact h

/-- The amount of a row: of the column that is populated. -/
def rowAmount (mapped row : List String) (ctx : String) : Except BankError ℤ :=
  if decide (cellOf mapped row "credit" ≠ "") then parseDirectionAmount D U (cellOf mapped row "credit") .credit ctx
  else (parseDirectionAmount D U (cellOf mapped row "debit") .debit ctx).map fun paise => -paise

/-- The line of a row with this amount on this day. -/
def rowLine (mapped row : List String) (refCol : Option String) (amount : ℤ) (d : Date) : BankCreditLine where
  key := lineKeyOf H (isoDate d) amount (cellOf mapped row "narration") (refCol.map (cellOf mapped row))
  valueDate := d
  amountPaise := amount
  narration := cellOf mapped row "narration"
  bankRef := truthy (refCol.map (cellOf mapped row))
  isCredit := decide (cellOf mapped row "credit" ≠ "")

/-- **What a row with content is parsed to.** -/
theorem parseRow_eq_ok {mapped row : List String} {refCol : Option String} {startLine : Nat} {line : BankCreditLine} :
    parseRow H D U mapped refCol startLine row = .ok line ↔
      row.length = mapped.length ∧ (cellOf mapped row "credit" ≠ "") ≠ (cellOf mapped row "debit" ≠ "") ∧
        ∃ amount d, rowAmount D U mapped row ("row " ++ toString startLine) = .ok amount ∧
          parseDate D U (cellOf mapped row "value_date") ("Bank statement " ++ ("row " ++ toString startLine)) = .ok d ∧
          line = rowLine H mapped row refCol amount d := by
  unfold parseRow
  dsimp only
  by_cases hlength : row.length ≠ mapped.length
  · rw [if_pos hlength]
    exact iff_of_false (fun h => (answers_throw (Q := fun _ => False) _ line h).elim) fun h => hlength h.1
  rw [if_neg hlength]
  by_cases hboth : (cellOf mapped row "credit" ≠ "") = (cellOf mapped row "debit" ≠ "")
  · rw [if_pos hboth]
    exact iff_of_false (fun h => (answers_throw (Q := fun _ => False) _ line h).elim) fun h => h.2.1 hboth
  rw [if_neg hboth]
  unfold rowAmount rowLine
  by_cases hcredit : decide (cellOf mapped row "credit" ≠ "") = true
  · rw [if_pos hcredit, if_pos hcredit]
    constructor
    · intro h
      obtain ⟨amount, hamount, h⟩ := bind_eq_ok.mp h
      obtain ⟨d, hd, h⟩ := bind_eq_ok.mp h
      exact ⟨not_not.mp hlength, hboth, amount, d, hamount, hd, (Except.ok.inj h).symm⟩
    · rintro ⟨_, _, amount, d, hamount, hd, rfl⟩
      exact bind_eq_ok.mpr ⟨amount, hamount, bind_eq_ok.mpr ⟨d, hd, rfl⟩⟩
  · rw [if_neg hcredit, if_neg hcredit]
    constructor
    · intro h
      obtain ⟨amount, hamount, h⟩ := bind_eq_ok.mp h
      obtain ⟨d, hd, h⟩ := bind_eq_ok.mp h
      exact ⟨not_not.mp hlength, hboth, amount, d, hamount, hd, (Except.ok.inj h).symm⟩
    · rintro ⟨_, _, amount, d, hamount, hd, rfl⟩
      exact bind_eq_ok.mpr ⟨amount, hamount, bind_eq_ok.mpr ⟨d, hd, rfl⟩⟩

theorem rowAmount_ctx {mapped row : List String} {ctx : String} {amount : ℤ}
    (h : rowAmount D U mapped row ctx = .ok amount) (ctx' : String) : rowAmount D U mapped row ctx' = .ok amount := by
  unfold rowAmount at h ⊢
  split at h
  · rename_i hcredit
    rw [if_pos hcredit]
    exact parseDirectionAmount_ctx D U h ctx'
  · rename_i hcredit
    rw [if_neg hcredit]
    obtain ⟨units, hunits, hneg⟩ := map_eq_ok.mp h
    exact map_eq_ok.mpr ⟨units, parseDirectionAmount_ctx D U hunits ctx', hneg⟩

theorem lineOf_of_parseRow {mapped row : List String} {refCol : Option String} {startLine : Nat}
    {line : BankCreditLine} (h : parseRow H D U mapped refCol startLine row = .ok line) :
    LineOf H D U mapped refCol row line := by
  intro startLine'
  obtain ⟨hlength, hboth, amount, d, hamount, hd, rfl⟩ := (parseRow_eq_ok H D U).mp h
  exact (parseRow_eq_ok H D U).mpr ⟨hlength, hboth, amount, d, rowAmount_ctx D U hamount _, parseDate_ctx D U hd _, rfl⟩

/-- A content hash is not marked. -/
theorem unmarked_lineKeyOf (valueDate narration : String) (amountPaise : ℤ) (bankRef : Option String) :
    Unmarked (lineKeyOf H valueDate amountPaise narration bankRef) := by
  unfold Unmarked lineKeyOf
  rw [String.toList_append, List.mem_append, not_or]
  refine ⟨by decide, fun h => ?_⟩
  rw [String.toList_ofList] at h
  have hhex : '#' ∈ hexDigits := H.hex_sha256 _ _ (List.mem_of_mem_take h)
  exact absurd hhex (by decide)

theorem unmarked_of_lineOf {mapped row : List String} {refCol : Option String} {line : BankCreditLine}
    (h : LineOf H D U mapped refCol row line) : Unmarked line.key := by
  obtain ⟨_, _, amount, d, _, _, rfl⟩ := (parseRow_eq_ok H D U).mp (h 0)
  exact unmarked_lineKeyOf H _ _ _ _

/-- **The first pass answers the lines of the records with content**, in order. -/
theorem parseBody_eq_ok (mapped : List String) (refCol : Option String) (rows : List (List String × Nat))
    (endLine : Nat) (lines : List BankCreditLine) :
    parseBody H D U mapped refCol endLine rows = .ok lines ↔
      List.Forall₂ (LineOf H D U mapped refCol) (dataRows rows) lines := by
  induction rows generalizing endLine lines with
  | nil =>
      unfold parseBody dataRows
      rw [List.map_nil, List.filter_nil, List.forall₂_nil_left_iff, Except.ok.injEq, eq_comm]
  | cons p rows ih =>
      obtain ⟨row, lineNum⟩ := p
      unfold parseBody dataRows
      rw [List.map_cons]
      by_cases hblank : (row.all fun x => strip x = "") = true
      · rw [if_pos hblank, List.filter_cons_of_neg (by simpa using hblank)]
        exact ih lineNum lines
      · rw [if_neg hblank, List.filter_cons_of_pos (by simpa using hblank), bind_eq_ok]
        constructor
        · rintro ⟨line, hline, h⟩
          obtain ⟨lines', hlines', heq⟩ := bind_eq_ok.mp h
          obtain rfl := Except.ok.inj heq
          exact List.Forall₂.cons (lineOf_of_parseRow H D U hline) ((ih lineNum lines').mp hlines')
        · intro h
          obtain ⟨line, lines', hline, hlines', rfl⟩ := List.forall₂_cons_left_iff.mp h
          exact ⟨line, hline _, bind_eq_ok.mpr ⟨lines', (ih lineNum lines').mpr hlines', rfl⟩⟩

theorem unmarked_of_forall₂ {mapped : List String} {refCol : Option String} {rows : List (List String)}
    {lines : List BankCreditLine} (h : List.Forall₂ (LineOf H D U mapped refCol) rows lines) :
    ∀ ln ∈ lines, Unmarked ln.key := by
  induction h with
  | nil => exact fun ln hln => absurd hln List.not_mem_nil
  | cons hline _ ih => exact List.forall_mem_cons.mpr ⟨unmarked_of_lineOf H D U hline, ih⟩

/-! ## The statement -/

/-- The column of the reference. -/
def refColumn (mapped : List String) : Option String :=
  if "ref_no" ∈ mapped then some "ref_no" else if "bank_ref" ∈ mapped then some "bank_ref" else none

/-- The header has the columns that are needed, each once. -/
structure HeaderAccepted (header : List String) : Prop where
  content : "value_date" ∈ header.map (columnName U) ∧ "narration" ∈ header.map (columnName U)
  nodup : (header.map (columnName U)).Nodup
  complete : bankRequired.filter (· ∉ header.map (columnName U)) = []

/-- The lines in a result. -/
def statementOf (source : String) (lines : List BankCreditLine) : BankLoadResult where
  lines := disambiguate (fun key => lines.countP fun ln => ln.key = key) Dict.empty lines
  provenance := { adapterId := "generic_csv", adapterVersion := "1.0.0", sourceLabel := source }

/-- **What a statement is parsed to** is said by its header and by its records with content. -/
theorem parseRows_eq_ok {header : List String} {rows : List (List String × Nat)} {source : String}
    {headerEndLine : Nat} {result : BankLoadResult} :
    parseRows H D U header rows source headerEndLine = .ok result ↔
      HeaderAccepted U header ∧ ∃ lines, List.Forall₂ (LineOf H D U (header.map (columnName U))
        (refColumn (header.map (columnName U)))) (dataRows rows) lines ∧ lines ≠ [] ∧
          result = statementOf source lines := by
  unfold parseRows
  dsimp only
  by_cases hcontent : "value_date" ∉ header.map (columnName U) ∨ "narration" ∉ header.map (columnName U)
  · rw [if_pos hcontent]
    refine iff_of_false (by rintro ⟨⟩) ?_
    rintro ⟨⟨hcontent', _, _⟩, _⟩
    exact hcontent.elim (fun h => h hcontent'.1) fun h => h hcontent'.2
  rw [if_neg hcontent]
  by_cases hnodup : ¬ (header.map (columnName U)).Nodup
  · rw [if_pos hnodup]
    exact iff_of_false (by rintro ⟨⟩) fun h => hnodup h.1.nodup
  rw [if_neg hnodup]
  by_cases hmissing : bankRequired.filter (· ∉ header.map (columnName U)) ≠ []
  · rw [if_pos hmissing]
    exact iff_of_false (by rintro ⟨⟩) fun h => hmissing h.1.complete
  rw [if_neg hmissing, bind_eq_ok]
  have hheader : HeaderAccepted U header :=
    { content := ⟨not_not.mp fun h => hcontent (Or.inl h), not_not.mp fun h => hcontent (Or.inr h)⟩
      nodup := not_not.mp hnodup
      complete := not_not.mp hmissing }
  constructor
  · rintro ⟨lines, hlines, h⟩
    by_cases hempty : lines = []
    · rw [if_pos hempty] at h
      cases h
    · rw [if_neg hempty] at h
      exact ⟨hheader, lines, (parseBody_eq_ok H D U _ _ _ _ _).mp hlines, hempty, (Except.ok.inj h).symm⟩
  · rintro ⟨_, lines, hlines, hempty, rfl⟩
    refine ⟨lines, (parseBody_eq_ok H D U _ _ _ _ _).mpr hlines, ?_⟩
    rw [if_neg hempty]
    rfl

/-- The keys of a statement are the names of the occurrences of its content hashes. -/
theorem keys_statementOf (source : String) (lines : List BankCreditLine) :
    (statementOf source lines).lines.map BankCreditLine.key =
      (labels (lines.map BankCreditLine.key)).map keyOfLabel := by
  have hseen : (fun key => decide (1 < lines.countP fun ln => ln.key = key)) =
      fun key => decide (1 < (lines.map BankCreditLine.key).count key) := by
    funext key
    rw [List.count, List.countP_map]
    congr 1
  unfold statementOf labels
  rw [keys_disambiguate, hseen]
  rfl

theorem nodup_keys_statementOf {lines : List BankCreditLine} (hbase : ∀ ln ∈ lines, Unmarked ln.key)
    (source : String) : ((statementOf source lines).lines.map BankCreditLine.key).Nodup := by
  have hlabel : ∀ label ∈ labels (lines.map BankCreditLine.key), Unmarked label.1 := by
    intro label hmem
    have hfst : label.1 ∈ (labels (lines.map BankCreditLine.key)).map Prod.fst := List.mem_map_of_mem hmem
    unfold labels at hfst
    rw [map_fst_number] at hfst
    obtain ⟨ln, hln, hkey⟩ := List.mem_map.mp hfst
    exact hkey ▸ hbase ln hln
  rw [keys_statementOf]
  exact (nodup_labels _).map_on fun label hmem label' hmem' heq =>
    keyOfLabel_inj (hlabel label hmem) (hlabel label' hmem') heq

/-- **The records with content correspond to the lines one to one and in order, the keys are distinct, and reordering
    the records reorders the keys and the lines without their numbers.** -/
theorem line_keys_one_to_one (header : List String) (rows : List (List String × Nat)) (source : String)
    (headerEndLine : Nat) (result : BankLoadResult)
    (haccepted : parseRows H D U header rows source headerEndLine = .ok result) :
    List.Forall₂ (fun row line => LineOf H D U (header.map (columnName U)) (refColumn (header.map (columnName U))) row
        line.unnumbered) (dataRows rows) result.lines ∧
      (result.lines.map BankCreditLine.key).Nodup ∧
      ∀ rows' source' headerEndLine', (rows'.map Prod.fst).Perm (rows.map Prod.fst) →
        ∃ result', parseRows H D U header rows' source' headerEndLine' = .ok result' ∧
          (result'.lines.map BankCreditLine.key).Perm (result.lines.map BankCreditLine.key) ∧
          (result'.lines.map BankCreditLine.unnumbered).Perm (result.lines.map BankCreditLine.unnumbered) := by
  obtain ⟨hheader, lines, hlines, hempty, rfl⟩ := (parseRows_eq_ok H D U).mp haccepted
  have hunmarked := unmarked_of_forall₂ H D U hlines
  refine ⟨?_, nodup_keys_statementOf hunmarked source, ?_⟩
  · refine List.forall₂_map_right_iff.mp ?_
    unfold statementOf
    rw [unnumbered_disambiguate _ hunmarked]
    exact hlines
  · intro rows' source' headerEndLine' hperm
    have hdata : (dataRows rows').Perm (dataRows rows) := hperm.filter _
    obtain ⟨lines', hlines', hpermuted⟩ := List.perm_comp_forall₂ hdata hlines
    have hne : lines' ≠ [] := fun h => hempty (List.nil_perm.mp (h ▸ hpermuted))
    refine ⟨statementOf source' lines', (parseRows_eq_ok H D U).mpr ⟨hheader, lines', hlines', hne, rfl⟩, ?_, ?_⟩
    · rw [keys_statementOf, keys_statementOf]
      exact (labels_perm (hpermuted.map _)).map _
    · unfold statementOf
      rw [unnumbered_disambiguate _ (unmarked_of_forall₂ H D U hlines'), unnumbered_disambiguate _ hunmarked]
      exact hpermuted

end Rows

/-- The digest of the payload that the records below share. -/
def sharedDigest : String := "fbd4225166992f963c53eaeb8a3d520c8505400d74c6f9c56593659ef99c3a95"

def sharedHashing : Hashing where
  canonical := fun _ => ""
  sha256 := fun _ => sharedDigest
  length_sha256 := fun _ => by decide +kernel
  hex_sha256 := fun _ c hc =>
    have hall : sharedDigest.toList.all (fun c => decide (c ∈ hexDigits)) = true := by decide +kernel
    of_decide_eq_true (List.all_eq_true.mp hall c hc)

/-- Two records around an empty one, with a separator in the narration of the one and in the reference of the other. -/
def referenceHeader : List String := ["Date", "Narration", "Ref No", "Debit", "Credit"]
def sharedRows : List (List String × Nat) :=
  [(["01/02/2026", "a|b", "c", "", "100"], 2), ([], 3), (["01/02/2026", "a", "b|c", "", "100"], 4)]

theorem line_keys_one_to_one_shared : ∃ result result',
    parseRows sharedHashing asciiDigits asciiUnicode referenceHeader sharedRows "bank" 1 = .ok result ∧
      result.lines.map (fun line => (line.key, line.narration, line.bankRef)) =
        [("k_fbd4225166992f96#1", "a|b", some "c"), ("k_fbd4225166992f96#2", "a", some "b|c")] ∧
      (result.lines.map BankCreditLine.key).Nodup ∧
      parseRows sharedHashing asciiDigits asciiUnicode referenceHeader sharedRows.reverse "bank" 1 = .ok result' ∧
      (result'.lines.map BankCreditLine.key).Perm (result.lines.map BankCreditLine.key) := by
  have hparse : (parseRows sharedHashing asciiDigits asciiUnicode referenceHeader sharedRows "bank" 1).map
      (fun result => result.lines.map fun line => (line.key, line.narration, line.bankRef)) =
        .ok [("k_fbd4225166992f96#1", "a|b", some "c"), ("k_fbd4225166992f96#2", "a", some "b|c")] := by
    decide +kernel
  obtain ⟨result, hresult, hlines⟩ := map_eq_ok.mp hparse
  obtain ⟨_, hnodup, hreorder⟩ :=
    line_keys_one_to_one sharedHashing asciiDigits asciiUnicode referenceHeader sharedRows "bank" 1 result hresult
  obtain ⟨result', hresult', hkeys, _⟩ := hreorder sharedRows.reverse "bank" 1 ((List.reverse_perm _).map _)
  exact ⟨result, result', hresult, hlines, hnodup, hresult', hkeys⟩

end Untangle
