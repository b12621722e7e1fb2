import Untangle.Correctness.RunReport
import Untangle.Engine.BankAdapters
import Untangle.Lib.Fallible

/-!
# `Correctness.BankAdapters` — what an amount cell is parsed to

An amount is multiplied and rounded to paise in a context of 28 digits, and its sign is looked for in the text. What a
cell says is its `cellNumeral`. The parser is exact and keeps the direction precisely if the arithmetic keeps that
number (`Kept`): it does not overflow, the digits beyond the precision do not mislead the rounding, and a number that
the sign test takes for unsigned is not negative, or is nothing in paise (`amounts_exact_iff`).
-/

namespace Untangle

open Lib

/-! ## What a cell says -/

/-- The text of the amount: without the marker, which must agree with the column. -/
def cellText (raw : String) (column : Column) : Option String :=
  match markerOf (strip raw) with
  | none => some (strip raw)
  | some marker => if markerColumn marker ≠ column then none else some (dropMarker (strip raw) marker)

/-- The number that the text shows without commas, zero if it shows nothing. -/
def textNumeral (D : DecimalDigits) (text : String) : Option Numeral :=
  if dropCommas (strip text) = "" then some ⟨false, 0, 0⟩
  else
    match decimalOfText D (dropCommas (strip text)) with
    | some (.finite x) => some x
    | _ => none

/-- The decimal value of a cell. -/
def cellNumeral (D : DecimalDigits) (raw : String) (column : Column) : Option Numeral :=
  (cellText raw column).bind (textNumeral D)

/-- A cell is parsed to its value in paise, rounded half up and not negative, or refused as malformed input. -/
def ParsedExactly (D : DecimalDigits) (U : Unicode) (raw : String) (column : Column) (ctx : String) : Prop :=
  (∃ message, parseDirectionAmount D U raw column ctx = .error (.input message)) ∨
    ∃ paise x, parseDirectionAmount D U raw column ctx = .ok paise ∧ cellNumeral D raw column = some x ∧ 0 ≤ paise ∧
      paise = roundHalfUp (100 * x.value)

/-- The amount in paise, before any rounding. -/
def inPaise (x : Numeral) : Numeral := ⟨x.negative, x.coeff * 100, x.exp⟩

/-- The arithmetic keeps an amount that the sign test lets through. -/
structure Kept (x : Numeral) : Prop where
  bounded : defaultContext.width (inPaise x) ≤ 1000000
  unspoiled : defaultContext.width (inPaise x) ≤ 28 → ¬ defaultContext.Spoiled (inPaise x)
  unsigned : defaultContext.width (inPaise x) ≤ 28 → x.negative = true → roundHalfUp (100 * x.value) = 0

/-- The cell is refused by its marker or its sign, or shows no number, or nothing, or what the arithmetic keeps. -/
def CellSafe (D : DecimalDigits) (raw : String) (column : Column) : Prop :=
  ∀ text x, cellText raw column = some text → signed text = false → textNumeral D text = some x → x.coeff ≠ 0 → Kept x

/-- No sign is hidden in a cell: a number that the sign test takes for unsigned is not negative, or is nothing in paise
    before and after it is fitted. -/
def CellDirected (D : DecimalDigits) (raw : String) (column : Column) : Prop :=
  ∀ text x, cellText raw column = some text → signed text = false → textNumeral D text = some x → x.coeff ≠ 0 →
    x.negative = true → roundHalfUp (100 * x.value) = 0 ∧ ¬ defaultContext.Spoiled (inPaise x)

section Cell

variable (D : DecimalDigits) (U : Unicode)

theorem value_inPaise (x : Numeral) : (inPaise x).value = 100 * x.value := by
  unfold inPaise Numeral.value
  push_cast
  ring

theorem mul_hundred (x : Numeral) : defaultContext.mul x ⟨false, 100, 0⟩ = defaultContext.fit (inPaise x) := by
  unfold Context.mul inPaise
  rw [Bool.xor_false, add_zero]

/-- A refusal of malformed input. -/
def RefusedInput {α : Type} (r : Except BankError α) : Prop := ∃ message, r = .error (.input message)

theorem refusedInput_signed (raw ctx : String) : RefusedInput (.error (signedError U raw ctx) : Except BankError ℤ) :=
  ⟨_, rfl⟩

/-- The marker and the sign are looked at first. -/
theorem parseDirectionAmount_cases (raw : String) (column : Column) (ctx : String) :
    (RefusedInput (parseDirectionAmount D U raw column ctx) ∧
        ∀ text, cellText raw column = some text → signed text = true) ∨
      ∃ text, cellText raw column = some text ∧ signed text = false ∧
        parseDirectionAmount D U raw column ctx = rupeesToPaise D U text ctx := by
  have hunsigned : ∀ text, (RefusedInput (unsignedAmount D U raw text ctx) ∧ signed text = true) ∨
      signed text = false ∧ unsignedAmount D U raw text ctx = rupeesToPaise D U text ctx := by
    intro text
    unfold unsignedAmount
    by_cases hsigned : signed text = true
    · rw [if_pos hsigned]
      exact Or.inl ⟨refusedInput_signed U raw ctx, hsigned⟩
    · rw [if_neg hsigned]
      exact Or.inr ⟨Bool.eq_false_iff.mpr hsigned, rfl⟩
  unfold parseDirectionAmount cellText
  cases hmarker : markerOf (strip raw) with
  | none =>
      dsimp only
      rcases hunsigned (strip raw) with ⟨hinput, hsigned⟩ | ⟨hsigned, heq⟩
      · refine Or.inl ⟨hinput, ?_⟩
        rintro text ⟨⟩
        exact hsigned
      · exact Or.inr ⟨_, rfl, hsigned, heq⟩
  | some marker =>
      dsimp only
      by_cases hcolumn : markerColumn marker ≠ column
      · rw [if_pos hcolumn, if_pos hcolumn]
        exact Or.inl ⟨⟨_, rfl⟩, fun text h => by cases h⟩
      · rw [if_neg hcolumn, if_neg hcolumn]
        rcases hunsigned (dropMarker (strip raw) marker) with ⟨hinput, hsigned⟩ | ⟨hsigned, heq⟩
        · refine Or.inl ⟨hinput, ?_⟩
          rintro text ⟨⟩
          exact hsigned
        · exact Or.inr ⟨_, rfl, hsigned, heq⟩

/-- What the number of a text is parsed to. -/
theorem rupeesToPaise_some {text : String} {x : Numeral} (h : textNumeral D text = some x) (ctx : String) :
    rupeesToPaise D U text ctx = (paiseOf x).mapError (caught U (dropCommas (strip text)) ctx) := by
  unfold textNumeral at h
  unfold rupeesToPaise
  dsimp only
  by_cases hempty : dropCommas (strip text) = ""
  · rw [if_pos hempty] at h ⊢
    obtain rfl := Option.some.inj h
    rfl
  · rw [if_neg hempty] at h ⊢
    cases hdecimal : decimalOfText D (dropCommas (strip text)) with
    | none =>
        rw [hdecimal] at h
        cases h
    | some v =>
        rw [hdecimal] at h
        cases v with
        | special => cases h
        | finite x' =>
            obtain rfl : x' = x := Option.some.inj h
            rfl

/-- What shows no number is refused. -/
theorem rupeesToPaise_none {text : String} (h : textNumeral D text = none) (ctx : String) :
    RefusedInput (rupeesToPaise D U text ctx) := by
  unfold textNumeral at h
  unfold rupeesToPaise
  dsimp only
  by_cases hempty : dropCommas (strip text) = ""
  · rw [if_pos hempty] at h
    cases h
  · rw [if_neg hempty] at h ⊢
    cases hdecimal : decimalOfText D (dropCommas (strip text)) with
    | none => exact ⟨_, rfl⟩
    | some v =>
        rw [hdecimal] at h
        cases v with
        | special => exact ⟨_, rfl⟩
        | finite x => cases h

end Cell

/-! ## The arithmetic -/

theorem paiseOf_zero {x : Numeral} (hx : x.coeff = 0) : paiseOf x = .ok 0 := by
  unfold paiseOf
  rw [mul_hundred]
  unfold Context.fit inPaise
  dsimp only
  rw [hx, Nat.zero_mul, if_pos rfl]
  rfl

/-- What the arithmetic makes of a number: an overflow, an invalid operation, or its sign with as many units. -/
theorem paiseOf_cases {x : Numeral} (hx : x.coeff ≠ 0) :
    (paiseOf x = .error .overflow ∧ 1000000 < defaultContext.width (inPaise x)) ∨
      (paiseOf x = .error .invalidOperation ∧ defaultContext.width (inPaise x) ≤ 1000000 ∧
        28 < defaultContext.width (inPaise x)) ∨
      (defaultContext.width (inPaise x) ≤ 28 ∧ ∃ units : ℕ,
        paiseOf x = .ok ((if x.negative then -1 else 1) * (units : ℤ)) ∧
          (units = scaledHalfUp (inPaise x).coeff (inPaise x).exp ↔ ¬ defaultContext.Spoiled (inPaise x)) ∧
          (defaultContext.Spoiled (inPaise x) → 0 < units)) := by
  have hcoeff : (inPaise x).coeff ≠ 0 := Nat.mul_ne_zero hx (by decide)
  have hfit_none : defaultContext.fit (inPaise x) = none ↔ (999999 : ℤ) < defaultContext.width (inPaise x) - 1 :=
    Context.fit_eq_none_iff hcoeff
  unfold paiseOf
  rw [mul_hundred]
  cases hfit : defaultContext.fit (inPaise x) with
  | none =>
      have hover : (999999 : ℤ) < defaultContext.width (inPaise x) - 1 := hfit_none.mp hfit
      exact Or.inl ⟨rfl, by omega⟩
  | some y =>
      have hbounded : defaultContext.width (inPaise x) ≤ 1000000 := by
        by_contra hover
        have hnone := hfit_none.mpr (show (999999 : ℤ) < defaultContext.width (inPaise x) - 1 by omega)
        rw [hfit] at hnone
        cases hnone
      obtain ⟨hrefused, hunits⟩ := Context.quantize_fit hcoeff hfit
      dsimp only
      cases hquantize : defaultContext.quantizeUnit y with
      | none => exact Or.inr (Or.inl ⟨rfl, hbounded, hrefused.mp hquantize⟩)
      | some paise =>
          have hnarrow : defaultContext.width (inPaise x) ≤ 28 := by
            by_contra hwide
            rw [hrefused.mpr (not_le.mp hwide)] at hquantize
            cases hquantize
          obtain ⟨units, rfl, hexact, hpos⟩ := hunits paise hquantize
          exact Or.inr (Or.inr ⟨hnarrow, units, rfl, hexact, hpos⟩)

theorem roundHalfUp_paise (x : Numeral) : roundHalfUp (100 * x.value) =
    (if x.negative then -1 else 1) * (scaledHalfUp (inPaise x).coeff (inPaise x).exp : ℤ) := by
  rw [← value_inPaise, Numeral.roundHalfUp_value]
  rfl

/-- **The arithmetic is exact on a number exactly if it keeps it.** -/
theorem paiseOf_iff {x : Numeral} (hx : x.coeff ≠ 0) :
    (paiseOf x = .error .invalidOperation ∨
      ∃ paise, paiseOf x = .ok paise ∧ 0 ≤ paise ∧ paise = roundHalfUp (100 * x.value)) ↔ Kept x := by
  rcases paiseOf_cases hx with ⟨heq, hover⟩ | ⟨heq, hbounded, hwide⟩ | ⟨hnarrow, units, heq, hexact, _⟩
  · rw [heq]
    apply iff_of_false
    · rintro (h | ⟨_, h, _⟩) <;> cases h
    · exact fun h => absurd h.bounded (not_le.mpr hover)
  · rw [heq]
    exact iff_of_true (Or.inl rfl)
      ⟨hbounded, fun h => absurd h (not_le.mpr hwide), fun h => absurd h (not_le.mpr hwide)⟩
  · have hkept : Kept x ↔ units = scaledHalfUp (inPaise x).coeff (inPaise x).exp ∧
        (x.negative = true → roundHalfUp (100 * x.value) = 0) := by
      rw [hexact]
      exact ⟨fun h => ⟨h.unspoiled hnarrow, h.unsigned hnarrow⟩,
        fun h => ⟨by omega, fun _ => h.1, fun _ => h.2⟩⟩
    have hok : (paiseOf x = .error .invalidOperation ∨
        ∃ paise, paiseOf x = .ok paise ∧ 0 ≤ paise ∧ paise = roundHalfUp (100 * x.value)) ↔
          0 ≤ (if x.negative then -1 else 1) * (units : ℤ) ∧
            (if x.negative then -1 else 1) * (units : ℤ) = roundHalfUp (100 * x.value) := by
      rw [heq]
      constructor
      · rintro (h | ⟨paise, h, hpaise⟩)
        · cases h
        · exact Except.ok.inj h ▸ hpaise
      · exact fun h => Or.inr ⟨_, rfl, h⟩
    rw [hok, hkept, roundHalfUp_paise]
    -- a negative number is only kept if nothing is left of it
    cases x.negative with
    | true =>
        rw [if_pos rfl]
        simp only [forall_const]
        omega
    | false =>
        rw [if_neg Bool.false_ne_true]
        simp only [Bool.false_eq_true, false_implies, and_true]
        omega

/-- An amount that is accepted is negative only if its number is, and anything is left of it. -/
theorem paiseOf_nonneg_iff {x : Numeral} (hx : x.coeff ≠ 0) {paise : ℤ} (h : paiseOf x = .ok paise) :
    0 ≤ paise ↔ (x.negative = true → roundHalfUp (100 * x.value) = 0 ∧ ¬ defaultContext.Spoiled (inPaise x)) := by
  rcases paiseOf_cases hx with ⟨heq, _⟩ | ⟨heq, _⟩ | ⟨_, units, heq, hexact, hpos⟩
  · rw [heq] at h
    cases h
  · rw [heq] at h
    cases h
  · rw [heq] at h
    obtain rfl := Except.ok.inj h
    rw [roundHalfUp_paise]
    cases x.negative with
    | true =>
        rw [if_pos rfl, ← hexact]
        constructor
        · intro hnonneg _
          have hsame := hexact.mpr fun hspoiled => by have := hpos hspoiled; omega
          exact ⟨by omega, hsame⟩
        · intro hnothing
          obtain ⟨hzero, hsame⟩ := hnothing rfl
          omega
    | false =>
        rw [if_neg Bool.false_ne_true]
        exact iff_of_true (by omega) (fun h => absurd h Bool.false_ne_true)

/-! ## Cells -/

section Cells

variable (D : DecimalDigits) (U : Unicode)

/-- Of the signals only an invalid operation is reported as malformed input. -/
theorem refusedInput_caught {text ctx : String} {r : Except Signal ℤ} :
    RefusedInput (r.mapError (caught U text ctx)) ↔ r = .error .invalidOperation := by
  unfold RefusedInput
  cases r with
  | ok paise => exact iff_of_false (fun ⟨_, h⟩ => by cases h) (fun h => by cases h)
  | error signal =>
      cases signal with
      | invalidOperation => exact iff_of_true ⟨_, rfl⟩ rfl
      | overflow => exact iff_of_false (fun ⟨_, h⟩ => by cases h) (fun h => by cases h)

/-- **A cell is parsed exactly, if it is accepted, precisely when it is safe.** -/
theorem parsedExactly_iff (raw : String) (column : Column) (ctx : String) :
    ParsedExactly D U raw column ctx ↔ CellSafe D raw column := by
  unfold ParsedExactly CellSafe cellNumeral
  rcases parseDirectionAmount_cases D U raw column ctx with ⟨hinput, hsigned⟩ | ⟨text, htext, hsigned, heq⟩
  · refine iff_of_true (Or.inl hinput) ?_
    intro text x htext hunsigned
    rw [hsigned text htext] at hunsigned
    cases hunsigned
  · rw [heq, htext]
    cases hnumeral : textNumeral D text with
    | none =>
        refine iff_of_true (Or.inl (rupeesToPaise_none D U hnumeral ctx)) ?_
        intro text' x htext' _ hx
        rw [← Option.some.inj htext', hnumeral] at hx
        cases hx
    | some x =>
        rw [rupeesToPaise_some D U hnumeral]
        have harithmetic : (RefusedInput ((paiseOf x).mapError (caught U (dropCommas (strip text)) ctx)) ∨
            ∃ paise x', (paiseOf x).mapError (caught U (dropCommas (strip text)) ctx) = .ok paise ∧
              (some text).bind (textNumeral D) = some x' ∧ 0 ≤ paise ∧ paise = roundHalfUp (100 * x'.value)) ↔
            (paiseOf x = .error .invalidOperation ∨
              ∃ paise, paiseOf x = .ok paise ∧ 0 ≤ paise ∧ paise = roundHalfUp (100 * x.value)) := by
          rw [refusedInput_caught]
          apply or_congr_right
          constructor
          · rintro ⟨paise, x', hok, hx', hexact⟩
            rw [Option.bind_some, hnumeral] at hx'
            obtain rfl := Option.some.inj hx'
            exact ⟨paise, mapError_eq_ok.mp hok, hexact⟩
          · rintro ⟨paise, hok, hexact⟩
            exact ⟨paise, x, mapError_eq_ok.mpr hok, by rw [Option.bind_some, hnumeral], hexact⟩
        refine harithmetic.trans ?_
        by_cases hx : x.coeff = 0
        · have hvalue : roundHalfUp (100 * x.value) = 0 := by
            rw [← value_inPaise, Numeral.roundHalfUp_value]
            unfold inPaise scaledHalfUp halfUpDiv
            simp [hx]
          refine iff_of_true (Or.inr ⟨0, paiseOf_zero hx, le_rfl, hvalue.symm⟩) ?_
          intro text' x' htext' _ hx' hne
          rw [← Option.some.inj htext', hnumeral] at hx'
          exact absurd (Option.some.inj hx' ▸ hx) hne
        · rw [paiseOf_iff hx]
          constructor
          · intro hkept text' x' htext' _ hx' _
            rw [← Option.some.inj htext', hnumeral] at hx'
            exact Option.some.inj hx' ▸ hkept
          · exact fun hsafe => hsafe text x rfl hsigned hnumeral hx

/-- **An accepted cell keeps its direction precisely when no sign is hidden in it.** -/
theorem parsed_nonneg_iff {raw : String} {column : Column} {ctx : String} {paise : ℤ}
    (h : parseDirectionAmount D U raw column ctx = .ok paise) : 0 ≤ paise ↔ CellDirected D raw column := by
  unfold CellDirected
  rcases parseDirectionAmount_cases D U raw column ctx with ⟨⟨message, hinput⟩, _⟩ | ⟨text, htext, hsigned, heq⟩
  · rw [hinput] at h
    cases h
  · rw [heq] at h
    cases hnumeral : textNumeral D text with
    | none =>
        obtain ⟨message, hinput⟩ := rupeesToPaise_none D U hnumeral ctx
        rw [hinput] at h
        cases h
    | some x =>
        rw [rupeesToPaise_some D U hnumeral] at h
        have hpaise := mapError_eq_ok.mp h
        by_cases hx : x.coeff = 0
        · rw [paiseOf_zero hx] at hpaise
          refine iff_of_true (Except.ok.inj hpaise).le ?_
          intro text' x' htext' _ hx' hne
          rw [htext] at htext'
          rw [← Option.some.inj htext', hnumeral] at hx'
          exact absurd (Option.some.inj hx' ▸ hx) hne
        · rw [paiseOf_nonneg_iff hx hpaise]
          constructor
          · intro hkept text' x' htext' _ hx' _
            rw [htext] at htext'
            rw [← Option.some.inj htext', hnumeral] at hx'
            exact Option.some.inj hx' ▸ hkept
          · exact fun hdirected => hdirected text x htext hsigned hnumeral hx

/-- A blank cell is nothing. -/
theorem cellDirected_empty (column : Column) : CellDirected D "" column := by
  intro text x htext _ hx hne
  have hnumeral : textNumeral D "" = some ⟨false, 0, 0⟩ := if_pos rfl
  obtain rfl : "" = text := Option.some.inj htext
  rw [hnumeral] at hx
  exact absurd (congrArg Numeral.coeff (Option.some.inj hx)).symm hne

end Cells

/-! ## Rows -/

/-- An amount on the side of its column. -/
def BankCreditLine.Directed (line : BankCreditLine) : Prop :=
  if line.isCredit then 0 ≤ line.amountPaise else line.amountPaise ≤ 0

/-- No sign is hidden in the amount cells of a row. -/
def RowDirected (D : DecimalDigits) (mapped row : List String) : Prop :=
  CellDirected D (cellOf mapped row "credit") .credit ∧ CellDirected D (cellOf mapped row "debit") .debit

section Rows

variable (H : Hashing) (D : DecimalDigits) (U : Unicode)

/-- A row with content has one amount, and the cell it is in decides the side. -/
theorem answers_parseRow (mapped row : List String) (refCol : Option String) (startLine : Nat) :
    Answers (fun line => line.Directed ↔ RowDirected D mapped row) (parseRow H D U mapped refCol startLine row) := by
  unfold parseRow RowDirected
  dsimp only
  by_cases hlength : row.length ≠ mapped.length
  · rw [if_pos hlength]
    exact answers_throw _
  rw [if_neg hlength]
  by_cases hboth : (cellOf mapped row "credit" ≠ "") = (cellOf mapped row "debit" ≠ "")
  · rw [if_pos hboth]
    exact answers_throw _
  rw [if_neg hboth]
  intro line hline
  by_cases hcredit : decide (cellOf mapped row "credit" ≠ "") = true
  · have hdebit : cellOf mapped row "debit" = "" := by
      by_contra hdebit
      exact hboth (propext (iff_of_true (of_decide_eq_true hcredit) hdebit))
    rw [if_pos hcredit] at hline
    obtain ⟨paise, hpaise, hline⟩ := bind_eq_ok.mp hline
    obtain ⟨d, _, hline⟩ := bind_eq_ok.mp hline
    obtain rfl := Except.ok.inj hline
    unfold BankCreditLine.Directed
    rw [if_pos hcredit, parsed_nonneg_iff D U hpaise, hdebit]
    exact (and_iff_left (cellDirected_empty D .debit)).symm
  · have hblank : cellOf mapped row "credit" = "" := by
      by_contra hblank
      exact hcredit (decide_eq_true hblank)
    rw [if_neg hcredit] at hline
    obtain ⟨paise, hpaise, hline⟩ := bind_eq_ok.mp hline
    obtain ⟨units, hunits, rfl⟩ := map_eq_ok.mp hpaise
    obtain ⟨d, _, hline⟩ := bind_eq_ok.mp hline
    obtain rfl := Except.ok.inj hline
    unfold BankCreditLine.Directed
    rw [if_neg hcredit, neg_nonpos, parsed_nonneg_iff D U hunits, hblank]
    exact (and_iff_right (cellDirected_empty D .credit)).symm

/-- The cells of a blank row are blank. -/
theorem cellOf_blank {row : List String} (h : (row.all fun x => strip x = "") = true) (mapped : List String)
    (name : String) : cellOf mapped row name = "" := by
  unfold cellOf
  cases hlookup : (mapped.zip row).lookup name with
  | none => rfl
  | some cell =>
      obtain ⟨before, after, hzip, _⟩ := List.lookup_eq_some_iff.mp hlookup
      have hmem : (name, cell) ∈ mapped.zip row := by
        rw [hzip]
        exact List.mem_append_right before List.mem_cons_self
      exact of_decide_eq_true (List.all_eq_true.mp h cell (List.of_mem_zip hmem).2)

/-- The loop keeps the direction of every row in which no sign is hidden. -/
theorem answers_parseBody (mapped : List String) (refCol : Option String) (rows : List (List String × Nat))
    (endLine : Nat) :
    Answers (fun lines => (∀ line ∈ lines, line.Directed) ↔ ∀ p ∈ rows, RowDirected D mapped p.1)
      (parseBody H D U mapped refCol endLine rows) := by
  induction rows generalizing endLine with
  | nil =>
      refine answers_ok (iff_of_true ?_ ?_)
      · exact fun line hline => absurd hline List.not_mem_nil
      · exact fun p hp => absurd hp List.not_mem_nil
  | cons p rows ih =>
      obtain ⟨row, lineNum⟩ := p
      unfold parseBody
      split
      · rename_i hblank
        have hrow : RowDirected D mapped row := by
          unfold RowDirected
          rw [cellOf_blank hblank, cellOf_blank hblank]
          exact ⟨cellDirected_empty D _, cellDirected_empty D _⟩
        intro lines hlines
        rw [List.forall_mem_cons]
        exact (ih lineNum lines hlines).trans (and_iff_right hrow).symm
      · refine answers_bind (answers_parseRow H D U mapped row refCol (endLine + 1)) fun line hline => ?_
        refine answers_bind (ih lineNum) fun lines hlines => ?_
        refine answers_ok ?_
        rw [List.forall_mem_cons, List.forall_mem_cons, hline, hlines]

/-- Numbering the lines of a key changes keys only. -/
theorem directed_disambiguate (seen : String → Nat) (lines : List BankCreditLine) (counters : Dict String Nat) :
    (∀ line ∈ disambiguate seen counters lines, line.Directed) ↔ ∀ line ∈ lines, line.Directed := by
  induction lines generalizing counters with
  | nil => exact Iff.rfl
  | cons ln lines ih =>
      unfold disambiguate
      dsimp only
      split
      · rw [List.forall_mem_cons, List.forall_mem_cons, ih]
        exact Iff.rfl
      · rw [List.forall_mem_cons, List.forall_mem_cons, ih]

/-- **A statement that is accepted has its amounts on the right sides precisely when no sign is hidden in it.** -/
theorem answers_parseRows (header : List String) (rows : List (List String × Nat)) (source : String)
    (headerEndLine : Nat) :
    Answers (fun result => (∀ line ∈ result.lines, line.Directed) ↔
        ∀ p ∈ rows, RowDirected D (header.map (columnName U)) p.1)
      (parseRows H D U header rows source headerEndLine) := by
  unfold parseRows
  dsimp only
  split
  · exact answers_throw _
  · split
    · exact answers_throw _
    · split
      · exact answers_throw _
      · refine answers_bind (answers_parseBody H D U _ _ rows headerEndLine) fun lines hlines => ?_
        split
        · exact answers_throw _
        · exact answers_ok ((directed_disambiguate _ lines _).trans hlines)

/-- **Amount cells are parsed exactly, or refused as malformed input, precisely when they are safe; and the lines that a
    statement is parsed to keep their direction precisely when no sign is hidden in its cells.** -/
theorem amounts_exact_iff :
    (∀ raw column ctx, ParsedExactly D U raw column ctx ↔ CellSafe D raw column) ∧
      ∀ header rows source headerEndLine result, parseRows H D U header rows source headerEndLine = .ok result →
        ((∀ line ∈ result.lines, line.Directed) ↔ ∀ p ∈ rows, RowDirected D (header.map (columnName U)) p.1) :=
  ⟨parsedExactly_iff D U, fun header rows source headerEndLine =>
    answers_parseRows H D U header rows source headerEndLine⟩

end Rows

/-- A statement with one credit. -/
def creditHeader : List String := ["Date", "Narration", "Debit", "Credit"]
def creditRows (amount : String) : List (List String × Nat) := [(["01/02/2026", "rent", "", amount], 2)]

theorem amounts_exact_iff_rent : ∃ result,
    parseRows blankHashing asciiDigits asciiUnicode creditHeader (creditRows "1,000.50 CR") "bank" 1 = .ok result ∧
      result.lines.map (fun line => (line.isCredit, line.amountPaise)) = [(true, 100050)] ∧
      ((∀ line ∈ result.lines, line.Directed) ↔
        ∀ p ∈ creditRows "1,000.50 CR", RowDirected asciiDigits (creditHeader.map (columnName asciiUnicode)) p.1) := by
  have hparse : (parseRows blankHashing asciiDigits asciiUnicode creditHeader (creditRows "1,000.50 CR") "bank" 1).map
      (fun result => result.lines.map fun line => (line.isCredit, line.amountPaise)) = .ok [(true, 100050)] := by
    decide +kernel
  obtain ⟨result, hresult, hlines⟩ := map_eq_ok.mp hparse
  exact ⟨result, hresult, hlines,
    (amounts_exact_iff blankHashing asciiDigits asciiUnicode).2 creditHeader _ "bank" 1 result hresult⟩

/-- An underscore before the sign hides it, and a credit becomes negative. A number beyond the exponents overflows,
    which is no malformed input. And less than half a paisa, with more digits than the precision, becomes a paisa. -/
theorem amounts_not_exact :
    (parseDirectionAmount asciiDigits asciiUnicode "_-100" .credit "row 2" = .ok (-10000) ∧
        ¬ ParsedExactly asciiDigits asciiUnicode "_-100" .credit "row 2") ∧
      (parseRows blankHashing asciiDigits asciiUnicode creditHeader (creditRows "_-100") "bank" 1).map
          (fun result => result.lines.map fun line => (line.isCredit, line.amountPaise)) = .ok [(true, -10000)] ∧
      (parseDirectionAmount asciiDigits asciiUnicode "1E+999999" .credit "row 2" = .error .overflow ∧
        ¬ ParsedExactly asciiDigits asciiUnicode "1E+999999" .credit "row 2") ∧
      (parseDirectionAmount asciiDigits asciiUnicode "0.0049999999999999999999999999999999" .credit "row 2" = .ok 1 ∧
        ¬ ParsedExactly asciiDigits asciiUnicode "0.0049999999999999999999999999999999" .credit "row 2") := by
  have hsigned : parseDirectionAmount asciiDigits asciiUnicode "_-100" .credit "row 2" = .ok (-10000) := by
    decide +kernel
  have hhuge : parseDirectionAmount asciiDigits asciiUnicode "1E+999999" .credit "row 2" = .error .overflow := by
    decide +kernel
  have hlong : parseDirectionAmount asciiDigits asciiUnicode "0.0049999999999999999999999999999999" .credit "row 2" =
      .ok 1 := by
    decide +kernel
  have hnumeral : cellNumeral asciiDigits "0.0049999999999999999999999999999999" .credit =
      some ⟨false, 49999999999999999999999999999999, -34⟩ := by
    decide +kernel
  refine ⟨⟨hsigned, ?_⟩, by decide +kernel, ⟨hhuge, ?_⟩, hlong, ?_⟩
  · rintro (⟨message, h⟩ | ⟨paise, x, h, _, hnonneg, _⟩)
    · rw [hsigned] at h
      cases h
    · rw [hsigned] at h
      obtain rfl := Except.ok.inj h
      exact absurd hnonneg (by decide)
  · rintro (⟨message, h⟩ | ⟨paise, x, h, _⟩)
    · rw [hhuge] at h
      cases h
    · rw [hhuge] at h
      cases h
  · rintro (⟨message, h⟩ | ⟨paise, x, h, hx, _, hexact⟩)
    · rw [hlong] at h
      cases h
    · rw [hlong] at h
      rw [hnumeral] at hx
      obtain rfl := Except.ok.inj h
      obtain rfl := Option.some.inj hx
      revert hexact
      decide +kernel

end Untangle
