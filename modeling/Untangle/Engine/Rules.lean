import Untangle.Engine.Solver

/-!
# `Engine.Rules` — human-approved rules over the attributions

Model of `engine/rules.py` and of the end of `attribute_all` that applies the rules. A rule does nothing until it is
approved, never matches a debit, and resolves what the engine abstained on; contradictory approvals are an explicit
abstention that outranks every verdict but Tier A.
-/

namespace Untangle

open Lib

/-- A durable rule proposed upon human exception resolution. -/
structure ProposedRule where
  ruleId : String
  targetRail : String
  patternType : String
  patternValue : String
  approved : Bool := false
  approvedBy : Option String := none
deriving DecidableEq, Repr

/-! ## Proposing and approving -/

/-- The rails a rule may target. -/
def validTargetRails : List String := [Rail.razorpaySettlement, .otherGateway, .directUpi, .codRemittance, .unrelated].map Rail.value

/-- Propose a new rule from a human resolution, inert until it is approved. `freshId` is the identifier that is made up
    where none is given, and `shownRails` the printed set of the valid rails. -/
def proposeRule (U : Unicode) (freshId shownRails targetRail patternValue patternType : String)
    (ruleId : Option String) : Except ValueError ProposedRule :=
  let cleanedPattern := U.lower (strip patternValue)
  if cleanedPattern = "" then .error ⟨"Pattern value cannot be empty"⟩
  else if targetRail ∉ validTargetRails then
    .error ⟨"Invalid target rail: " ++ targetRail ++ ". Must be one of " ++ shownRails⟩
  else .ok
    { ruleId := (truthy ruleId).getD freshId
      targetRail := targetRail
      patternType := patternType
      patternValue := cleanedPattern }

/-- Explicitly approve a proposed rule. -/
def approveRule (rule : ProposedRule) (approver : String) : Except ValueError ProposedRule :=
  if strip approver = "" then .error ⟨"Approver identifier must be provided"⟩
  else .ok { rule with approved := true, approvedBy := some (strip approver) }

/-! ## Matching -/

/-- `[\s\-_/]`. -/
def isBoundary (c : Char) : Bool := isSpace c || c = '-' || c = '_' || c = '/'

/-- The pattern stands at the head of the text, followed by a boundary or the end. -/
def boundedHere (pattern text : List Char) : Bool :=
  pattern.isPrefixOf text && (text.drop pattern.length).head?.all isBoundary

/-- `re.search(r"(?:^|[\s\-_/])pattern(?:$|[\s\-_/])", text)`; `start` says that the pattern may start here. -/
def boundedSearch (pattern : List Char) (start : Bool) : List Char → Bool
  | [] => start && boundedHere pattern []
  | c :: cs => (start && boundedHere pattern (c :: cs)) || boundedSearch pattern (isBoundary c) cs

section Rules

variable (U : Unicode)

/-- Does an approved rule strictly match a line? -/
def matchRule (line : BankCreditLine) (rule : ProposedRule) : Bool :=
  if !rule.approved then false
  else
    let text := U.lower line.rawText
    let pattern := U.lower rule.patternValue
    if rule.patternType = "narration_keyword" then boundedSearch pattern.toList true text.toList
    else if rule.patternType = "bank_ref_prefix" then
      (truthy line.bankRef).any fun ref => pattern.toList.isPrefixOf (U.lower ref).toList
    else false

/-- The approved rules that match a line, by rule id. -/
def matchedRules (rules : List ProposedRule) (line : BankCreditLine) : List ProposedRule :=
  (rules.filter fun r => r.approved ∧ matchRule U line r).insertionSort fun r r' => r.ruleId ≤ r'.ruleId

/-- A printed list of strings. -/
def reprList (xs : List String) : String := "[" ++ String.intercalate ", " (xs.map U.repr) ++ "]"

/-- What the matched rules say about a line: nothing, a rail, or an abstention over their conflict. -/
def ruleVerdict (line : BankCreditLine) (matched : List ProposedRule) : Option RailAttribution :=
  let rails := (matched.map ProposedRule.targetRail).dedup
  match matched with
  | [] => none
  | rule :: _ =>
    if 1 < rails.length then
      some
        { lineKey := line.key
          rail := Rail.unknown.value
          confidence := 0
          tier := Tier.none.value
          evidence := [⟨"rule_conflict", "conflicting approved rules target " ++
            reprList U (rails.insertionSort (· ≤ ·)) ++ ": " ++
            reprList U ((matched.map ProposedRule.ruleId).insertionSort (· ≤ ·)), 0⟩]
          abstained := true }
    else
      some
        { lineKey := line.key
          rail := rule.targetRail
          confidence := 95 / 100
          tier := Tier.rule.value
          evidence := [⟨"human_approved_rule", "Matched rule " ++ rule.ruleId ++ " (pattern '" ++
            rule.patternValue ++ "') approved by " ++ rule.approvedBy.getD "None", 95 / 100⟩] }

/-- `apply_approved_rules`: the verdict of the rules on each credit they match. -/
def applyApprovedRules (lines : List BankCreditLine) (rules : List ProposedRule) : Dict String RailAttribution :=
  Dict.gather (fun line => if line.isCredit ∧ (ruleVerdict U line (matchedRules U rules line)).isSome then
      some line.key else none)
    (fun line _ => (ruleVerdict U line (matchedRules U rules line)).getD (abstain line 0 []))
    lines

/-- What becomes of a base attribution. -/
def withRule (ruleAttrs : Dict String RailAttribution) (a : RailAttribution) : RailAttribution :=
  match ruleAttrs.get? a.lineKey with
  | none => a
  | some ra =>
    if hasSignal ["rule_conflict"] ra.evidence then (if a.tier = Tier.a.value then a else ra)
    else if a.abstained then ra
    else a

/-- `attribute_all`: the baseline or the solver, and the rules on top. -/
def attributeAllRules (s : Settings) (index : ReconIndex) (globalSolver : Bool) (rules : List ProposedRule)
    (lines : List BankCreditLine) : Except ValueError (List RailAttribution) := do
  let base ← if globalSolver then attributeAllSolved U s index lines else attributeAll U s index lines
  return base.map (withRule (applyApprovedRules U lines rules))

end Rules

end Untangle
