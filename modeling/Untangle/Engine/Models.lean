import Mathlib.Algebra.Order.Group.Abs
import Mathlib.Algebra.Order.Group.Int
import Mathlib.Algebra.Ring.Int.Defs
import Mathlib.Data.Rat.Defs
import Untangle.Engine.Text

/-!
# `Engine.Models` — the data records

Model of `engine/models.py`. All money is integer paise. Confidences and weights, floats in the source, are
exact rationals. A date is its day number, a naive timestamp its day and second of day.
-/

namespace Untangle

/-! ## Enumerations -/

inductive Rail
  | razorpaySettlement
  | otherGateway
  | directUpi
  | codRemittance
  | unrelated
  | unknown
deriving DecidableEq, Repr

/-- The string a `StrEnum` member is. -/
def Rail.value : Rail → String
  | .razorpaySettlement => "razorpay_settlement"
  | .otherGateway => "other_gateway"
  | .directUpi => "direct_upi"
  | .codRemittance => "cod_remittance"
  | .unrelated => "unrelated"
  | .unknown => "UNKNOWN"

theorem Rail.value_injective {r r' : Rail} (h : r.value = r'.value) : r = r' := by
  cases r <;> cases r' <;> first | rfl | exact absurd h (by decide)

inductive Tier
  | a
  | b
  | c
  | llm
  | rule
  | none
deriving DecidableEq, Repr

def Tier.value : Tier → String
  | .a => "A"
  | .b => "B"
  | .c => "C"
  | .llm => "LLM"
  | .rule => "rule_derived"
  | .none => "none"

/-! ## Inputs -/

/-- A calendar date, as its proleptic ordinal. -/
abbrev Date := ℤ

/-- A naive timestamp with second resolution. -/
structure DateTime where
  date : Date
  second : Nat
deriving DecidableEq, Repr

/-- `abs((d - d').days) <= n`. -/
def withinDays (n : ℤ) (d d' : Date) : Bool := |d - d'| ≤ n

/-- One line on the merchant's bank statement. -/
structure BankCreditLine where
  key : String
  valueDate : Date
  amountPaise : ℤ
  narration : String
  bankRef : Option String
  isCredit : Bool
deriving DecidableEq, Repr

def BankCreditLine.rawText (line : BankCreditLine) : String :=
  strip (line.narration ++ " " ++ line.bankRef.getD "")

/-- One settled Razorpay transaction. -/
structure ReconRow where
  entityId : String
  type : String
  amountPaise : ℤ
  feePaise : ℤ
  taxPaise : ℤ
  debitPaise : ℤ
  creditPaise : ℤ
  settlementId : Option String
  settlementUtr : Option String
  settledAt : Option DateTime
  createdAt : Option DateTime
  onHold : Bool
  disputeId : Option String
  orderId : Option String
  method : Option String
  description : Option String
  rowId : Option String := none
  authorizedAmountPaise : Option ℤ := none
  capturedAmountPaise : Option ℤ := none
deriving DecidableEq, Repr

def ReconRow.netPaise (r : ReconRow) : ℤ := r.creditPaise - r.debitPaise

/-- A string the source tests for truth: absent and empty count as missing. -/
def truthy (s : Option String) : Option String := s.filter (· ≠ "")

/-! ## Outputs -/

structure EvidenceItem where
  signal : String
  detail : String
  weight : ℚ
deriving DecidableEq, Repr

/-- How a solver explanation names a candidate. -/
structure CandidateSummary where
  assignmentId : String
  targetId : String
  rail : String
  confidence : ℚ
deriving DecidableEq, Repr

/-- The two shapes of the `competing_explanation` dictionary. -/
inductive Explanation
  | challenger (operator rail : String) (score : ℚ) (detail : String) (removedSignals : List String)
  | globalSolver (chosen competing : CandidateSummary) (objectiveGap marginThreshold : ℚ)
      (detail : String)
deriving DecidableEq, Repr

structure RailAttribution where
  lineKey : String
  rail : String
  confidence : ℚ
  tier : String
  evidence : List EvidenceItem := []
  abstained : Bool := false
  llmUsed : Bool := false
  proofMargin : Option ℚ := none
  competingExplanation : Option Explanation := none
deriving DecidableEq, Repr

structure ReconciliationResult where
  lineKey : String
  coveredEntityIds : List (String × String)
  coveredNetPaise : ℤ
  creditAmountPaise : ℤ
  residualPaise : ℤ
  balanced : Bool
  coveredRowIds : List String := []
deriving DecidableEq, Repr

/-! ## Plain records

A credit, a settled row and a verdict with every field that no decision reads left neutral: the records
concrete inputs are written with. -/

def settledRow (entityId settlementId : String) (utr : Option String) (net : ℤ) : ReconRow where
  entityId := entityId
  type := "payment"
  amountPaise := net
  feePaise := 0
  taxPaise := 0
  debitPaise := 0
  creditPaise := net
  settlementId := some settlementId
  settlementUtr := utr
  settledAt := some ⟨739000, 36000⟩
  createdAt := none
  onHold := false
  disputeId := none
  orderId := none
  method := none
  description := none

def creditLine (key narration : String) (amountPaise : ℤ) : BankCreditLine where
  key := key
  valueDate := 739000
  amountPaise := amountPaise
  narration := narration
  bankRef := none
  isCredit := true

def provenAttribution (line : BankCreditLine) : RailAttribution where
  lineKey := line.key
  rail := Rail.razorpaySettlement.value
  confidence := 9 / 10
  tier := Tier.a.value

end Untangle
