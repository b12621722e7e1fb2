import Untangle.Engine.Attribute
import Untangle.Engine.Reconcile

/-!
# `Engine.Narrate` — the language model on residual narrations

Model of `engine/llm/narrate.py`. What the client answers is any function of the position of the attribution, so it
covers every model behind every masked prompt; the order in which the set of valid rails is iterated is a parameter
as well. The guard reads the default pack, whatever pack the attribution was made with.
-/

namespace Untangle

open Lib

/-- `_VALID_RAILS`, a set. -/
def validRails : List String :=
  [Rail.razorpaySettlement, Rail.otherGateway, Rail.directUpi, Rail.codRemittance, Rail.unrelated].map Rail.value

section Narrate

variable (U : Unicode) (railOrder : List String) (index : ReconIndex)

/-- `_parse_rail`: the first rail, in iteration order, that the answer contains. -/
def parseRail (text : String) : Option String := railOrder.find? fun rail => isIn rail (U.lower (strip text))

/-- `_confirms`. -/
def confirms (proposal : String) (line : BankCreditLine) : Bool :=
  if proposal = Rail.razorpaySettlement.value then
    (truthy (defaultNarrationPack.hasDecoyMarker U line)).isNone &&
      (razorpaySignals U defaultNarrationPack index line).any fun e =>
        e.signal ∉ ["amount_corr", "value_date_proximity"]
  else proposal ∈ validRails

/-- The line is put to the model: UNKNOWN, without a rule conflict, and with a narration. -/
def putToModel (lines : LinesByKey) (a : RailAttribution) : Option BankCreditLine :=
  if a.rail ≠ Rail.unknown.value ∨ hasSignal ["rule_conflict"] a.evidence then none
  else (lines.dict.get? a.lineKey).filter fun line => line.narration ≠ ""

def llmAttribution (a : RailAttribution) (proposal : String) (confidence : ℚ) : RailAttribution where
  lineKey := a.lineKey
  rail := proposal
  confidence := confidence
  tier := Tier.llm.value
  evidence := a.evidence ++ [⟨"llm_narration", "LLM proposed " ++ proposal ++ ", rules confirmed", 3 / 10⟩]
  llmUsed := true

/-- One attribution and the model's answer to it. -/
def resolveUnknown (lines : LinesByKey) (confidence : ℚ) (a : RailAttribution) (answer : Option String) :
    RailAttribution :=
  match putToModel lines a with
  | none => a
  | some line =>
    match answer.bind (parseRail U railOrder) with
    | none => { a with llmUsed := true }
    | some proposal =>
      if proposal ≠ "" ∧ confirms U index proposal line then llmAttribution a proposal confidence
      else { a with llmUsed := true }

/-- `resolve_unknowns`. -/
def resolveUnknowns (lines : LinesByKey) (enabled : Bool) (confidence : ℚ) (answers : Nat → Option String)
    (attributions : List RailAttribution) : List RailAttribution :=
  if enabled then attributions.mapIdx fun i a => resolveUnknown U railOrder index lines confidence a (answers i)
  else attributions

end Narrate

end Untangle
