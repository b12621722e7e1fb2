import Mathlib.Data.List.Sort
import Mathlib.Data.String.Basic
import Untangle.Lib.Dict
import Untangle.Lib.Subsets

/-!
# `Engine.BoundedSubsets` — deterministic, fail-closed bounded subset-sum enumeration

Model of `engine/bounded_subsets.py`. Two searches over `(id, amount)` items:

* `findBoundedSubsets` examines every combination of `min_terms..max_terms` items under a combination budget;
* `findLegacySubsets` looks two- and three-term sums up in an amount index, for pools of up to 200 items.

Both stop at `max_results` matches, and both reject malformed items with a `ValueError`.
-/

namespace Untangle

open Lib

/-- The exception class the engine raises on malformed arguments, with its message. -/
structure ValueError where
  message : String
deriving DecidableEq, Repr

/-- An item of a subset-sum search: identity and amount in paise. -/
abbrev Item := String × ℤ

/-- At most `max_results` distinct identity tuples and an exhaustion marker. -/
structure BoundedSubsetResult where
  subsets : List (List String)
  exhausted : Bool
deriving DecidableEq, Repr

/-- The item checks shared by both searches (that an amount is an `int` is its type here). -/
def checkItems (ordered : List Item) : Except ValueError Unit :=
  if ¬ (ordered.map Prod.fst).Nodup then
    .error ⟨"subset-sum item identities must be unique"⟩
  else if ∃ item ∈ ordered, item.2 ≤ 0 then
    .error ⟨"subset-sum item amounts must be positive integers"⟩
  else .ok ()

/-! ## The amount-indexed search -/

/-- `value_to_ids`: the identities carrying an amount, in item order. -/
def valueToIds (ordered : List Item) : Dict ℤ (List String) :=
  Dict.gather (fun item => some item.2) (fun item ids => ids.getD [] ++ [item.1]) ordered

/-- `value_to_ids.get(remainder, [])`. -/
def idsOfValue (ordered : List Item) (value : ℤ) : List String :=
  ((valueToIds ordered).get? value).getD []

/-- The tuples the two-term loop visits, in visiting order. -/
def pairTuples (ordered : List Item) (target : ℤ) : List (List String) :=
  ordered.flatMap fun item =>
    ((idsOfValue ordered (target - item.2)).filter fun other => ¬ other ≤ item.1).map
      fun other => [item.1, other]

/-- The tuples the three-term loop visits, in visiting order: `second` runs over the items after `first`,
    `third` over *all* items with the remaining amount. -/
def tripleTuples (ordered : List Item) (target : ℤ) : List Item → List (List String)
  | [] => []
  | first :: rest =>
    (rest.flatMap fun second =>
      let remainder := target - first.2 - second.2
      if remainder ≤ 0 then []
      else ((idsOfValue ordered remainder).filter fun third => ¬ third ≤ second.1).map
        fun third => [first.1, second.1, third])
    ++ tripleTuples ordered target rest

def findLegacySubsets (items : List Item) (target : ℤ) (maxResults : Nat) :
    Except ValueError BoundedSubsetResult := do
  if target ≤ 0 ∨ maxResults < 1 then
    throw ⟨"invalid legacy subset-sum bounds"⟩
  checkItems items
  return ⟨firstDistinct List.toFinset maxResults
    (pairTuples items target ++ tripleTuples items target items), false⟩

/-! ## The exhaustive search -/

/-- The bounds of `find_bounded_subsets`, with its keyword defaults. -/
structure SubsetBounds where
  tolerance : ℤ := 0
  minTerms : Nat := 1
  maxTerms : Nat := 5
  maxItems : Nat := 16
  maxCombinations : Nat := 100000
  maxResults : Nat := 2
  sortItems : Bool := true
deriving DecidableEq, Repr

/-- All combinations of `min_terms..max_terms` items, in examination order. -/
def combinationsInRange (b : SubsetBounds) (ordered : List Item) : List (List Item) :=
  (List.range' b.minTerms (b.maxTerms + 1 - b.minTerms)).flatMap fun termCount =>
    combinations termCount ordered

def comboMatches (b : SubsetBounds) (target : ℤ) (combo : List Item) : Prop :=
  |(combo.map Prod.snd).sum - target| ≤ b.tolerance

instance (b : SubsetBounds) (target : ℤ) (combo : List Item) :
    Decidable (comboMatches b target combo) :=
  inferInstanceAs (Decidable (_ ≤ _))

/-- The examination loop: `found` are the matches so far, `examined` counts combinations. -/
def examine (b : SubsetBounds) (target : ℤ) :
    List (List Item) → List (List String) → Nat → BoundedSubsetResult
  | [], found, _ => ⟨found, false⟩
  | combo :: rest, found, examined =>
    if b.maxCombinations < examined + 1 then ⟨[], true⟩
    else if ¬ comboMatches b target combo then examine b target rest found (examined + 1)
    else if b.maxResults ≤ (found ++ [combo.map Prod.fst]).length then
      ⟨found ++ [combo.map Prod.fst], false⟩
    else examine b target rest (found ++ [combo.map Prod.fst]) (examined + 1)

def findBoundedSubsets (items : List Item) (target : ℤ) (b : SubsetBounds) :
    Except ValueError BoundedSubsetResult := do
  if target ≤ 0 ∨ b.tolerance < 0 ∨ b.maxTerms < b.minTerms then
    throw ⟨"invalid bounded subset-sum bounds"⟩
  if b.maxItems < 1 ∨ b.maxCombinations < 1 ∨ b.maxResults < 1 then
    throw ⟨"bounded subset-sum budgets must be positive"⟩
  let ordered := if b.sortItems then items.insertionSort (fun x y => x.1 ≤ y.1) else items
  if b.maxItems < ordered.length then
    return ⟨[], true⟩
  checkItems ordered
  return examine b target (combinationsInRange b ordered) [] 0

/-! ## The branch both callers take

Attribution and reconciliation carry the same constants and choose the search by the size of the pool. -/

def setsumMaxTerms : Nat := 5
def setsumMaxCandidates : Nat := 200
def setsumExpansionMaxCandidates : Nat := 16
def setsumMaxCombinations : Nat := 100000

/-- The keyword arguments of the small-pool call. -/
def setsumBounds : SubsetBounds where
  maxTerms := setsumMaxTerms
  maxItems := setsumExpansionMaxCandidates
  maxCombinations := setsumMaxCombinations
  sortItems := false

def setsumSearch (cands : List Item) (target : ℤ) : Except ValueError BoundedSubsetResult :=
  if cands.length ≤ setsumExpansionMaxCandidates then findBoundedSubsets cands target setsumBounds
  else findLegacySubsets cands target 2

end Untangle
