import Untangle.Engine.Models
import Untangle.Lib.Dict

/-!
# `Engine.Packs` — narration evidence packs

Model of `engine/packs.py`: an immutable pack of narration rules and its two evaluators. A pack's identity and
version only name it; the rules and the weights are what the evaluators read. A keyword or marker that is the
empty string is found in every text and then counts as no hit, which is what the source's truth tests do.
-/

namespace Untangle

open Lib

/-- Immutable, versioned rule pack for narration-derived evidence. -/
structure NarrationEvidencePack where
  railKeywords : Dict Rail (List String)
  decoyMarkers : List String
  rzpBrand : List String
  rzpContext : List String
  rzpIfsc : String
  nonRzpPatternWeight : ℚ := 19 / 20
  rzpBrandContextWeight : ℚ := 3 / 10
  rzpBrandWeakWeight : ℚ := 3 / 20
  rzpIfscWeight : ℚ := 1 / 4
  settlementRefWeight : ℚ := 1 / 2

/-- `narration_pattern:<rail>`. -/
def narrationPattern (rail : Rail) : String := "narration_pattern:" ++ rail.value

namespace NarrationEvidencePack

variable (U : Unicode) (pack : NarrationEvidencePack)

/-- The text the rules are matched against. -/
def matchText (line : BankCreditLine) : String := U.lower (normalizeNarration U line.rawText)

/-- The first keyword of a rail found in the text. -/
def keywordHit (line : BankCreditLine) (keywords : List String) : Option String :=
  truthy (keywords.find? fun kw => isIn kw (matchText U line))

/-- Evaluate non-Razorpay narration patterns against normalized text. -/
def evaluateNonRzpSignals (line : BankCreditLine) : Dict Rail (List EvidenceItem) :=
  Dict.gather (fun p => (keywordHit U line p.2).map fun _ => p.1)
    (fun p items => items.getD [] ++
      [{ signal := narrationPattern p.1
         detail := "narration contains " ++ U.repr ((keywordHit U line p.2).getD "")
         weight := pack.nonRzpPatternWeight }])
    pack.railKeywords.items

/-- The first decoy marker found in the text. -/
def hasDecoyMarker (line : BankCreditLine) : Option String :=
  pack.decoyMarkers.find? fun marker => isIn marker (matchText U line)

/-- Narration brand, context, IFSC and settlement-reference signals; a decoy marker voids them all. -/
def evaluateRzpNarrationSignals (line : BankCreditLine) (hasTokens matchedExactUtr : Bool) :
    List EvidenceItem :=
  let low := matchText U line
  if (truthy (pack.hasDecoyMarker U line)).isSome then []
  else
    let hasBrand := pack.rzpBrand.any fun b => isIn b low
    let hasIfsc := isIn pack.rzpIfsc low
    let rzpIdentity := hasBrand || hasIfsc
    let hasContext := pack.rzpContext.any fun c => isIn c low
    (if hasBrand && hasContext then
      [⟨"narration_brand_rzp", "razorpay brand + settlement context", pack.rzpBrandContextWeight⟩]
    else if hasBrand then
      [⟨"narration_brand_rzp", "razorpay brand token (weak)", pack.rzpBrandWeakWeight⟩]
    else []) ++
    (if hasIfsc then
      [⟨"ifsc_ratn", "RATN0000088 (Razorpay RBL settlement IFSC)", pack.rzpIfscWeight⟩]
    else []) ++
    (if rzpIdentity && hasTokens && !matchedExactUtr then
      [⟨"settlement_ref", "UTR-shaped transfer reference with a Razorpay identity token",
        pack.settlementRefWeight⟩]
    else [])

end NarrationEvidencePack

/-- The built-in multi-rail pack. -/
def defaultNarrationPack : NarrationEvidencePack where
  railKeywords :=
    { items :=
        [(.otherGateway, ["payu", "cashfree", "ccavenue", "cc avenue", "easebuzz", "billdesk",
            "instamojo", "infibeam", "phonepe payment"]),
          (.codRemittance, ["cod", "shiprocket", "delhivery", "xpressbees", "ecom express",
            "shopify commerce", "cash on delivery"]),
          (.directUpi, ["upi settlement", "upi merchant", "upi/cr", "bulk upi cr", "npci", "upi/",
            "@ybl", "@okaxis", "@paytm", "@okhdfcbank"]),
          (.unrelated, ["personal", "gst refund", "savings interest", "interest credit", "int.pd",
            "charges", " chg", "outward chg", "vendor refund", "payouts", "amazon seller", "salary",
            "loan disbursal", "cbic"])]
      nodup := by decide }
  decoyMarkers := ["payouts", "vendor refund", "@ybl", "collect", "payout"]
  rzpBrand := ["razorpay", "rzp"]
  rzpContext := ["settlement", "settle", "razorpay software", "razorpayx settlement"]
  rzpIfsc := "ratn0000088"

end Untangle
