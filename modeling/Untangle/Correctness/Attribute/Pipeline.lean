import Untangle.Correctness.Attribute.Line
import Untangle.Lib.Fallible

/-!
# `Correctness.Attribute.Pipeline` — the pipeline, line by line

`attribute_all` decides every line, then lifts split legs over the whole list. It never raises, and its output
at a line is `verdictOf`: the line's own verdict, unless the line's key is among the assigned legs.
-/

namespace Untangle

open Lib

section Pipeline

variable (U : Unicode) (s : Settings) (index : ReconIndex) (lines : List BankCreditLine)

/-- The verdict of a line before the splits are looked at. -/
def lineVerdict (line : BankCreditLine) : RailAttribution :=
  (lineDecision U s.threshold s.pack index line).finish s line (narrationRailSignals U s.pack line)

/-- The lines that may be legs. -/
def splitCandidates : List BankCreditLine :=
  lines.filter fun line => isSplitCandidate U s index line (lineVerdict U s index line)

/-- What phase 2 assigns for a pool of candidates. -/
def assignedLegs (candidates : List BankCreditLine) : Dict String (String × Nat × ℤ) :=
  if candidates.length < 2 then Dict.empty
  else assignLegs index (evidenceByKey U s index candidates)
    (collectMatches candidates (splitSettlements index)).1
    (collectMatches candidates (splitSettlements index)).2

/-- The final verdict of a line. -/
def verdictOf (line : BankCreditLine) : RailAttribution :=
  if splitConfidence < s.threshold then lineVerdict U s index line
  else liftLeg U s (assignedLegs U s index (splitCandidates U s index lines)) line
    (lineVerdict U s index line)

theorem zip_map_self {α β : Type} (f : α → β) (l : List α) : l.zip (l.map f) = l.map fun a => (a, f a) := by
  induction l with
  | nil => rfl
  | cons a l ih => simp [ih]

theorem liftLeg_empty (line : BankCreditLine) (a : RailAttribution) :
    liftLeg U s Dict.empty line a = a := rfl

theorem reconstructSplits_eq :
    reconstructSplits U s index lines (lines.map (lineVerdict U s index)) =
      .ok (lines.map (verdictOf U s index lines)) := by
  have hcands : ((lines.map fun line => (line, lineVerdict U s index line)).filter fun p =>
      isSplitCandidate U s index p.1 p.2).map Prod.fst = splitCandidates U s index lines := by
    rw [List.filter_map, List.map_map]
    exact List.map_id _
  have hzip : zipStrict lines (lines.map (lineVerdict U s index)) =
      .ok (lines.map fun line => (line, lineVerdict U s index line)) := by
    unfold zipStrict
    rw [List.length_map, if_neg (lt_irrefl _), if_neg (lt_irrefl _), zip_map_self]
  unfold reconstructSplits verdictOf
  by_cases hthreshold : splitConfidence < s.threshold
  · simp only [if_pos hthreshold]
    rfl
  · simp only [if_neg hthreshold, hzip, bind, Except.bind, hcands]
    unfold assignedLegs
    by_cases hsmall : (splitCandidates U s index lines).length < 2
    · simp only [if_pos hsmall, liftLeg_empty]
      rfl
    · simp only [if_neg hsmall]
      split
      · rename_i hnil
        have hempty : assignLegs index (evidenceByKey U s index (splitCandidates U s index lines))
            (collectMatches (splitCandidates U s index lines) (splitSettlements index)).1
            (collectMatches (splitCandidates U s index lines) (splitSettlements index)).2
              = Dict.empty := by
          cases hd : assignLegs index (evidenceByKey U s index (splitCandidates U s index lines))
            (collectMatches (splitCandidates U s index lines) (splitSettlements index)).1
            (collectMatches (splitCandidates U s index lines) (splitSettlements index)).2 with
          | mk items nodup =>
              rw [hd] at hnil
              subst hnil
              rfl
        rw [hempty]
        rfl
      · show Except.ok _ = _
        rw [List.map_map]
        rfl

/-- **`attribute_all` never raises**, and its verdicts are `verdictOf` line by line. -/
theorem attributeAll_eq :
    attributeAll U s index lines = .ok (lines.map (verdictOf U s index lines)) := by
  unfold attributeAll
  rw [mapM_eq_ok_map fun line _ => attributeLine_eq U s index line]
  exact reconstructSplits_eq U s index lines

/-- A final verdict is the line's own, or that of a leg put to the challenger. -/
theorem verdictOf_cases (line : BankCreditLine) :
    verdictOf U s index lines line = lineVerdict U s index line ∨
      (s.threshold ≤ splitConfidence ∧ ∃ sid legs residual,
        (assignedLegs U s index (splitCandidates U s index lines)).get? line.key
          = some (sid, legs, residual) ∧
        verdictOf U s index lines line = finalizeRazorpay s line [splitItem sid legs residual]
          (narrationRailSignals U s.pack line) splitConfidence .c) := by
  unfold verdictOf
  by_cases hthreshold : splitConfidence < s.threshold
  · exact Or.inl (if_pos hthreshold)
  · rw [if_neg hthreshold]
    unfold liftLeg
    cases hget : (assignedLegs U s index (splitCandidates U s index lines)).get? line.key with
    | none => exact Or.inl rfl
    | some v => exact Or.inr ⟨not_lt.mp hthreshold, v.1, v.2.1, v.2.2, rfl, rfl⟩

theorem lineKey_lineVerdict (line : BankCreditLine) : (lineVerdict U s index line).lineKey = line.key := by
  unfold lineVerdict
  cases hd : lineDecision U s.threshold s.pack index line with
  | settled a => exact (lineDecision_settled hd).elim Abstained.key fun ho => ho.1.key
  | candidate evidence score tier => exact lineKey_finalizeRazorpay line tier

variable {U s index lines}

theorem lineKey_verdictOf (line : BankCreditLine) : (verdictOf U s index lines line).lineKey = line.key := by
  rcases verdictOf_cases U s index lines line with hown | ⟨_, sid, legs, residual, _, hlift⟩
  · rw [hown]
    exact lineKey_lineVerdict U s index line
  · rw [hlift]
    exact lineKey_finalizeRazorpay line .c

end Pipeline

end Untangle
