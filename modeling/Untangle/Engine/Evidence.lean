import Mathlib.Data.List.Sort
import Mathlib.Data.String.Basic
import Untangle.Engine.Packs
import Untangle.Engine.Report

/-!
# `Engine.Evidence` — per-rail evidence signals

Model of `engine/evidence.py`. Nothing here makes a verdict: `razorpaySignals` lists the weighted signals that a
line is a Razorpay settlement, the report-backed ties first and the narration signals of the pack after them.
-/

namespace Untangle

open Lib

/-- Value-date proximity window to a settlement's settled date. -/
def evidenceDateWindowDays : ℤ := 3

/-- Precomputed lookups over the recon report. -/
structure ReconIndex where
  settlementUtrs : List String
  utrToSid : Dict String String
  settlementNet : Dict String ℤ
  settlementDate : Dict String Date
  netToSettlements : Dict ℤ (List String)

section Signals

variable (U : Unicode)

/-- The constructor. `settlementUtrs` is a set, so a UTR is listed once. -/
def ReconIndex.ofRows (rows : List ReconRow) : ReconIndex where
  settlementUtrs := (rows.filterMap fun r => (truthy r.settlementUtr).map U.lower).dedup
  utrToSid := settlementOfUtr U rows
  settlementNet := netBySettlement rows
  settlementDate := dateBySettlement rows
  netToSettlements := settlementsOfNet (netBySettlement rows)

namespace ReconIndex

variable (index : ReconIndex)

def utrExact (token : String) : Bool := U.lower token ∈ index.settlementUtrs

/-- The settlement UTR this token is the suffix of, only if that match is unique. -/
def utrSuffixMatch (token : String) : Option String :=
  let t := U.lower token
  if t.length < 6 then none
  else
    match index.settlementUtrs.filter fun u => endsWith u t && u ≠ t with
    | [u] => some u
    | _ => none

/-- The settlement's date is near the line's value date. -/
def dateNear (line : BankCreditLine) (sid : String) : Bool :=
  datedWithin index.settlementDate evidenceDateWindowDays sid line.valueDate

end ReconIndex

/-- Distinctive non-Razorpay narration keywords, as weighted evidence per rail. -/
def narrationRailSignals (pack : NarrationEvidencePack) (line : BankCreditLine) :
    Dict Rail (List EvidenceItem) :=
  pack.evaluateNonRzpSignals U line

/-! ## UTR ties -/

/-- A destroyed-prefix UTR, with what corroborates it. -/
inductive SuffixTie
  | strong (tok utr how : String)
  | weak (tok utr : String)
deriving DecidableEq, Repr

/-- The scan over the candidate tokens: a corroborated suffix ends it, the first uncorroborated one is kept. -/
def suffixScan (index : ReconIndex) (line : BankCreditLine) (weak : Option SuffixTie) :
    List String → Option SuffixTie
  | [] => weak
  | tok :: toks =>
    match index.utrSuffixMatch U tok with
    | none => suffixScan index line weak toks
    | some u =>
      let sid := index.utrToSid.get? u
      let dateOk := sid.any fun s => index.dateNear line s
      let amtOk := line.isCredit && (sid.bind index.settlementNet.get?) == some line.amountPaise
      if dateOk || amtOk then some (.strong tok u (if dateOk then "value-date" else "amount"))
      else suffixScan index line (some (weak.getD (.weak tok u))) toks

/-- `sorted({m.group(0) for m in _ALNUM.finditer(text)})`. -/
def suffixCandidates (text : String) : List String :=
  (alnumTokens text).dedup.insertionSort (· ≤ ·)

def SuffixTie.item : SuffixTie → EvidenceItem
  | .strong tok u how =>
    ⟨"utr_suffix", "token " ++ U.repr tok ++ " is the unique suffix of settlement_utr " ++ u ++
      ", corroborated by " ++ how, 1 / 2⟩
  | .weak tok u =>
    ⟨"utr_suffix_weak", "token " ++ U.repr tok ++ " tails settlement_utr " ++ u ++
      " but is uncorroborated (date/amount)", 1 / 5⟩

/-- The first UTR token that the report lists. -/
def matchedExact (index : ReconIndex) (line : BankCreditLine) : Option String :=
  (extractUtrTokens U (normalizeNarration U line.rawText)).find? (index.utrExact U)

/-- The UTR evidence: an exact match, or else a suffix match. -/
def utrSignals (index : ReconIndex) (line : BankCreditLine) : List EvidenceItem :=
  match matchedExact U index line with
  | some t => [⟨"utr_exact", "UTR " ++ t ++ " matches a settlement_utr", 19 / 20⟩]
  | none =>
    ((suffixScan U index line none (suffixCandidates (normalizeNarration U line.rawText))).map
      (SuffixTie.item U)).toList

/-! ## Amount ties -/

/-- The amount evidence: only a unique net match is a tie by itself. -/
def amountSignals (index : ReconIndex) (line : BankCreditLine) : List EvidenceItem :=
  match (if line.isCredit then index.netToSettlements.get? line.amountPaise else none) with
  | none => []
  | some sids =>
    let near := sids.any (index.dateNear line)
    ⟨if sids.length = 1 then "amount_corr" else "amount_corr_multi",
      "credit equals settlement net for " ++ toString sids.length ++ " settlement(s)" ++
        (if near then " within value-date window" else ""),
      if near then 1 / 2 else 3 / 10⟩ ::
    (if near then [⟨"value_date_proximity", "value_date within 3d of settled_at", 1 / 5⟩] else [])

/-- Evidence that a credit is a Razorpay settlement, tied back to the recon report. -/
def razorpaySignals (pack : NarrationEvidencePack) (index : ReconIndex) (line : BankCreditLine) :
    List EvidenceItem :=
  utrSignals U index line ++ amountSignals index line ++
    pack.evaluateRzpNarrationSignals U line
      (!(extractUtrTokens U (normalizeNarration U line.rawText)).isEmpty)
      (matchedExact U index line).isSome

end Signals

end Untangle
